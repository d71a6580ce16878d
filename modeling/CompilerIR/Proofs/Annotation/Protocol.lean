import CompilerIR.Annotation.Visitor
import CompilerIR.Proofs.Annotation.Replay

/-!
The calls that visitors get when an annotation is told to them. Main statement: whatever the
visitors do, their calls are well nested, every value makes one call on what it belongs to, and
all that is lost is which of the annotations inside are visible.
-/

namespace CompilerIR

/-! ### Calls -/

inductive VisitorCall
  | visit (name : Option String) (value : Scalar)
  | visitEnum (name : Option String) (member : EnumMember)
  | openNested (name : Option String) (desc : String)
  | openArray (name : Option String)
  | finish
deriving DecidableEq

/-- The calls so far, each with the number of its visitor. Visitors are numbered in the order in
which they are opened, the root first. -/
structure CallLog where
  calls : List (Nat × VisitorCall)
  opened : Nat

namespace CallLog

def start : CallLog := ⟨[], 1⟩

def note (log : CallLog) (number : Nat) (call : VisitorCall) : CallLog :=
  { log with calls := log.calls ++ [(number, call)] }

def noteOpening (log : CallLog) (number : Nat) (call : VisitorCall) : CallLog :=
  ⟨log.calls ++ [(number, call)], log.opened + 1⟩

end CallLog

def AnnotationVisitor.logged {State Visitor : Type} (visitors : AnnotationVisitor State Visitor) :
    AnnotationVisitor (State × CallLog) (Visitor × Nat) where
  visit visitor name value state :=
    (visitors.visit visitor.1 name value state.1, state.2.note visitor.2 (.visit name value))
  visitEnum visitor name member state :=
    (visitors.visitEnum visitor.1 name member state.1,
      state.2.note visitor.2 (.visitEnum name member))
  openNested visitor name desc state :=
    let (child, opened) := visitors.openNested visitor.1 name desc state.1
    ((child, state.2.opened), (opened, state.2.noteOpening visitor.2 (.openNested name desc)))
  openArray visitor name state :=
    let (child, opened) := visitors.openArray visitor.1 name state.1
    ((child, state.2.opened), (opened, state.2.noteOpening visitor.2 (.openArray name)))
  finish visitor state := (visitors.finish visitor.1 state.1, state.2.note visitor.2 .finish)

/-! ### Calls of an annotation -/

def ElementValue.call (name : Option String) : ElementValue → VisitorCall
  | .scalar value => .visit name value
  | .enum member => .visitEnum name member
  | .nested entry => .openNested name entry.desc
  | .array _ => .openArray name

mutual

/-- The calls that the visitors opened for a value are to get, visitor by visitor: one for each
value that belongs to theirs, in its order, and the end. -/
def ElementValue.received : ElementValue → List (List VisitorCall)
  | .scalar _ | .enum _ => []
  | .nested entry => entry.received
  | .array items =>
      (items.map (ElementValue.call none) ++ [.finish]) :: ElementValue.itemsReceived items

def AnnotationEntry.received : AnnotationEntry → List (List VisitorCall)
  | ⟨_, _, params⟩ =>
      (params.map (fun param => param.2.call (some param.1)) ++ [.finish]) ::
        ElementValue.paramsReceived params

def ElementValue.itemsReceived : List ElementValue → List (List VisitorCall)
  | [] => []
  | item :: items => item.received ++ ElementValue.itemsReceived items

def ElementValue.paramsReceived : List (String × ElementValue) → List (List VisitorCall)
  | [] => []
  | (_, value) :: rest => value.received ++ ElementValue.paramsReceived rest

end

mutual

/-- All calls that come of telling the value to the visitor `receiver`, when `next` is the number
of the next one to be opened. -/
def ElementValue.calls (receiver next : Nat) (name : Option String) :
    ElementValue → List (Nat × VisitorCall)
  | .scalar value => [(receiver, .visit name value)]
  | .enum member => [(receiver, .visitEnum name member)]
  | .nested entry => (receiver, .openNested name entry.desc) :: entry.calls next (next + 1)
  | .array items =>
      (receiver, .openArray name) ::
        (ElementValue.itemCalls next (next + 1) items ++ [(next, .finish)])

def AnnotationEntry.calls (receiver next : Nat) : AnnotationEntry → List (Nat × VisitorCall)
  | ⟨_, _, params⟩ => ElementValue.paramCalls receiver next params ++ [(receiver, .finish)]

def ElementValue.itemCalls (receiver next : Nat) :
    List ElementValue → List (Nat × VisitorCall)
  | [] => []
  | item :: items =>
      item.calls receiver next none ++
        ElementValue.itemCalls receiver (next + item.received.length) items

def ElementValue.paramCalls (receiver next : Nat) :
    List (String × ElementValue) → List (Nat × VisitorCall)
  | [] => []
  | (name, value) :: rest =>
      value.calls receiver next (some name) ++
        ElementValue.paramCalls receiver (next + value.received.length) rest

end

/-! ### Visibility -/

section Visitors

variable {State Visitor : Type} (visitors : AnnotationVisitor State Visitor)

open ElementValue (itemEvents paramEvents normalizeItems normalizeParams)

mutual

/-- Whether the annotations inside are visible is not told. -/
theorem ElementValue.event_normalize (name : Option String) : (value : ElementValue) →
    value.normalize.event name = value.event name
  | .scalar _ | .enum _ => rfl
  | .nested ⟨desc, _, params⟩ =>
      congrArg (AnnotationEvent.openNested name desc) (ElementValue.paramEvents_normalize params)
  | .array items =>
      congrArg (AnnotationEvent.openArray name) (ElementValue.itemEvents_normalize items)

theorem ElementValue.itemEvents_normalize : (items : List ElementValue) →
    itemEvents (normalizeItems items) = itemEvents items
  | [] => rfl
  | item :: items => by
      rw [normalizeItems, itemEvents, itemEvents, item.event_normalize,
        ElementValue.itemEvents_normalize items]

theorem ElementValue.paramEvents_normalize : (params : List (String × ElementValue)) →
    paramEvents (normalizeParams params) = paramEvents params
  | [] => rfl
  | (name, value) :: rest => by
      rw [normalizeParams, paramEvents, paramEvents, value.event_normalize,
        ElementValue.paramEvents_normalize rest]

end

theorem AnnotationEntry.script_normalize (entry : AnnotationEntry) :
    entry.normalize.script = entry.script := by
  obtain ⟨desc, visible, params⟩ := entry
  exact ElementValue.paramEvents_normalize params

theorem AnnotationEntry.walk_normalize (visitor : Visitor) (state : State)
    (entry : AnnotationEntry) :
    entry.normalize.walk visitors visitor state = entry.walk visitors visitor state := by
  rw [AnnotationEntry.walk_eq_driveAll, AnnotationEntry.walk_eq_driveAll,
    AnnotationEntry.script_normalize]

/-! ### What is noted -/

def CallLog.extend (log : CallLog) (calls : List (Nat × VisitorCall)) (more : Nat) : CallLog :=
  ⟨log.calls ++ calls, log.opened + more⟩

theorem CallLog.extend_extend (log : CallLog) (calls later : List (Nat × VisitorCall))
    (more evenMore : Nat) :
    (log.extend calls more).extend later evenMore =
      log.extend (calls ++ later) (more + evenMore) := by
  simp only [extend, List.append_assoc, Nat.add_assoc]

theorem CallLog.note_extend (log : CallLog) (calls : List (Nat × VisitorCall)) (more number : Nat)
    (call : VisitorCall) :
    (log.extend calls more).note number call = log.extend (calls ++ [(number, call)]) more := by
  simp only [note, extend, List.append_assoc]

theorem CallLog.noteOpening_extend (log : CallLog) (number : Nat) (call : VisitorCall)
    (calls : List (Nat × VisitorCall)) (more : Nat) :
    (log.noteOpening number call).extend calls more =
      log.extend ((number, call) :: calls) (more + 1) := by
  simp only [noteOpening, extend, List.append_assoc, List.singleton_append, Nat.add_comm more 1,
    Nat.add_assoc]

theorem AnnotationEntry.received_pos (entry : AnnotationEntry) : 0 < entry.received.length := by
  obtain ⟨desc, visible, params⟩ := entry
  exact Nat.succ_pos _

mutual

theorem ElementValue.walk_logged (visitor : Visitor) (receiver : Nat) (name : Option String)
    (state : State) (log : CallLog) : (value : ElementValue) →
    value.walk visitors.logged (visitor, receiver) name (state, log) =
      (value.walk visitors visitor name state,
        log.extend (value.calls receiver log.opened name) value.received.length)
  | .scalar _ | .enum _ => rfl
  | .nested entry => by
      let child := visitors.openNested visitor name entry.desc state
      let opening := log.noteOpening receiver (.openNested name entry.desc)
      have told := AnnotationEntry.walk_logged child.1 log.opened child.2 opening entry
      have noted : opening.extend (entry.calls log.opened opening.opened)
          (entry.received.length - 1) =
            log.extend ((ElementValue.nested entry).calls receiver log.opened name)
              (ElementValue.nested entry).received.length := by
        rw [CallLog.noteOpening_extend, Nat.sub_add_cancel (AnnotationEntry.received_pos entry)]
        rfl
      rw [noted] at told
      exact told
  | .array items => by
      let child := visitors.openArray visitor name state
      let opening := log.noteOpening receiver (.openArray name)
      have told := ElementValue.walkItems_logged child.1 log.opened child.2 opening items
      have noted : (opening.extend (ElementValue.itemCalls log.opened opening.opened items)
          (ElementValue.itemsReceived items).length).note log.opened .finish =
            log.extend ((ElementValue.array items).calls receiver log.opened name)
              (ElementValue.array items).received.length := by
        rw [CallLog.note_extend, CallLog.noteOpening_extend]
        rfl
      rw [← noted]
      exact congrArg (visitors.logged.finish (child.1, log.opened)) told

theorem AnnotationEntry.walk_logged (visitor : Visitor) (receiver : Nat)
    (state : State) (log : CallLog) : (entry : AnnotationEntry) →
    entry.walk visitors.logged (visitor, receiver) (state, log) =
      (entry.walk visitors visitor state,
        log.extend (entry.calls receiver log.opened) (entry.received.length - 1))
  | ⟨_, _, params⟩ => by
      have told := ElementValue.walkParams_logged visitor receiver state log params
      have noted : (log.extend (ElementValue.paramCalls receiver log.opened params)
          (ElementValue.paramsReceived params).length).note receiver .finish =
            log.extend (ElementValue.paramCalls receiver log.opened params ++ [(receiver, .finish)])
              (ElementValue.paramsReceived params).length :=
        CallLog.note_extend _ _ _ _ _
      rw [AnnotationEntry.walk, told]
      exact Prod.ext rfl noted

theorem ElementValue.walkItems_logged (visitor : Visitor) (receiver : Nat)
    (state : State) (log : CallLog) : (items : List ElementValue) →
    ElementValue.walkItems visitors.logged (visitor, receiver) (state, log) items =
      (ElementValue.walkItems visitors visitor state items,
        log.extend (ElementValue.itemCalls receiver log.opened items)
          (ElementValue.itemsReceived items).length)
  | [] => by
      simp [ElementValue.walkItems, ElementValue.itemCalls, ElementValue.itemsReceived,
        CallLog.extend]
  | item :: items => by
      rw [ElementValue.walkItems, item.walk_logged, ElementValue.walkItems_logged,
        CallLog.extend_extend, ElementValue.itemsReceived, List.length_append]
      rfl

theorem ElementValue.walkParams_logged (visitor : Visitor) (receiver : Nat)
    (state : State) (log : CallLog) : (params : List (String × ElementValue)) →
    ElementValue.walkParams visitors.logged (visitor, receiver) (state, log) params =
      (ElementValue.walkParams visitors visitor state params,
        log.extend (ElementValue.paramCalls receiver log.opened params)
          (ElementValue.paramsReceived params).length)
  | [] => by
      simp [ElementValue.walkParams, ElementValue.paramCalls, ElementValue.paramsReceived,
        CallLog.extend]
  | (name, value) :: rest => by
      rw [ElementValue.walkParams, value.walk_logged, ElementValue.walkParams_logged,
        CallLog.extend_extend, ElementValue.paramsReceived, List.length_append]
      rfl

end

end Visitors

/-! ### Nesting -/

/-- A visitor that is not finished. The events of an annotation have names, those of an array
have none. -/
structure OpenVisitor where
  number : Nat
  takesNames : Bool

/-- Where a run of calls has come to: the visitors not finished yet, the innermost first, and how
many have been opened. -/
structure Nesting where
  unfinished : List OpenVisitor
  opened : Nat

namespace Nesting

def start : Nesting := ⟨[⟨0, true⟩], 1⟩

/-- Only the innermost visitor may be called, with a name or without one as it takes them. -/
def step? (nesting : Nesting) (noted : Nat × VisitorCall) : Option Nesting :=
  match nesting.unfinished with
  | [] => none
  | innermost :: others =>
      if noted.1 = innermost.number then
        match noted.2 with
        | .visit name _ | .visitEnum name _ =>
            if name.isSome = innermost.takesNames then some nesting else none
        | .openNested name _ =>
            if name.isSome = innermost.takesNames then
              some ⟨⟨nesting.opened, true⟩ :: nesting.unfinished, nesting.opened + 1⟩
            else none
        | .openArray name =>
            if name.isSome = innermost.takesNames then
              some ⟨⟨nesting.opened, false⟩ :: nesting.unfinished, nesting.opened + 1⟩
            else none
        | .finish => some { nesting with unfinished := others }
      else none

end Nesting

/-- Every visitor is finished once, before the one that it was opened for gets its next call, and
the root is finished last. -/
def WellNested (calls : List (Nat × VisitorCall)) : Prop :=
  ∃ opened, calls.foldlM Nesting.step? .start = some ⟨[], opened⟩

namespace Nesting

theorem step?_openNested {name : Option String} {receiver : OpenVisitor}
    (named : name.isSome = receiver.takesNames) (desc : String) (outer : List OpenVisitor)
    (next : Nat) :
    step? ⟨receiver :: outer, next⟩ (receiver.number, .openNested name desc) =
      some ⟨⟨next, true⟩ :: receiver :: outer, next + 1⟩ := by
  simp only [step?, if_true, named]

theorem step?_openArray {name : Option String} {receiver : OpenVisitor}
    (named : name.isSome = receiver.takesNames) (outer : List OpenVisitor) (next : Nat) :
    step? ⟨receiver :: outer, next⟩ (receiver.number, .openArray name) =
      some ⟨⟨next, false⟩ :: receiver :: outer, next + 1⟩ := by
  simp only [step?, if_true, named]

theorem step?_finish (receiver : OpenVisitor) (outer : List OpenVisitor) (next : Nat) :
    step? ⟨receiver :: outer, next⟩ (receiver.number, .finish) = some ⟨outer, next⟩ := by
  simp only [step?, if_true]

-- The stack of a visitor is the same before and after all that is told to it, so the statements
-- about members of a list can be strung together.
mutual

theorem run_calls (name : Option String) (receiver : OpenVisitor)
    (named : name.isSome = receiver.takesNames) (outer : List OpenVisitor) (next : Nat) :
    (value : ElementValue) →
    (value.calls receiver.number next name).foldlM step? ⟨receiver :: outer, next⟩ =
      some ⟨receiver :: outer, next + value.received.length⟩
  | .scalar _ | .enum _ => by
      simp [ElementValue.calls, ElementValue.received, step?, named]
  | .nested entry => by
      have below := run_entryCalls ⟨next, true⟩ rfl (receiver :: outer) (next + 1) entry
      have count : next + 1 + (entry.received.length - 1) = next + entry.received.length := by
        have atLeastItself := entry.received_pos
        omega
      rw [count] at below
      rw [ElementValue.calls, List.foldlM_cons, step?_openNested named]
      exact below
  | .array items => by
      have below := run_itemCalls ⟨next, false⟩ rfl (receiver :: outer) (next + 1) items
      have closed := step?_finish ⟨next, false⟩ (receiver :: outer)
        (next + 1 + (ElementValue.itemsReceived items).length)
      rw [ElementValue.calls, List.foldlM_cons, step?_openArray named, Option.bind_eq_bind,
        Option.bind_some, List.foldlM_append, below, Option.bind_eq_bind, Option.bind_some,
        List.foldlM_cons, closed, ElementValue.received, List.length_cons, Nat.add_assoc,
        Nat.add_comm 1]
      rfl

theorem run_entryCalls (receiver : OpenVisitor) (named : receiver.takesNames = true)
    (outer : List OpenVisitor) (next : Nat) : (entry : AnnotationEntry) →
    (entry.calls receiver.number next).foldlM step? ⟨receiver :: outer, next⟩ =
      some ⟨outer, next + (entry.received.length - 1)⟩
  | ⟨_, _, params⟩ => by
      have below := run_paramCalls receiver named outer next params
      rw [AnnotationEntry.calls, List.foldlM_append, below, Option.bind_eq_bind, Option.bind_some,
        List.foldlM_cons, step?_finish]
      rfl

theorem run_itemCalls (receiver : OpenVisitor) (unnamed : receiver.takesNames = false)
    (outer : List OpenVisitor) (next : Nat) : (items : List ElementValue) →
    (ElementValue.itemCalls receiver.number next items).foldlM step? ⟨receiver :: outer, next⟩ =
      some ⟨receiver :: outer, next + (ElementValue.itemsReceived items).length⟩
  | [] => rfl
  | item :: items => by
      have first := run_calls none receiver unnamed.symm outer next item
      rw [ElementValue.itemCalls, List.foldlM_append, first, Option.bind_eq_bind, Option.bind_some,
        run_itemCalls receiver unnamed outer _ items, ElementValue.itemsReceived,
        List.length_append, Nat.add_assoc]

theorem run_paramCalls (receiver : OpenVisitor) (named : receiver.takesNames = true)
    (outer : List OpenVisitor) (next : Nat) : (params : List (String × ElementValue)) →
    (ElementValue.paramCalls receiver.number next params).foldlM step? ⟨receiver :: outer, next⟩ =
      some ⟨receiver :: outer, next + (ElementValue.paramsReceived params).length⟩
  | [] => rfl
  | (name, value) :: rest => by
      have first := run_calls (some name) receiver named.symm outer next value
      rw [ElementValue.paramCalls, List.foldlM_append, first, Option.bind_eq_bind,
        Option.bind_some, run_paramCalls receiver named outer _ rest, ElementValue.paramsReceived,
        List.length_append, Nat.add_assoc]

end

end Nesting

/-! ### Calls of each visitor -/

def callsTo (number : Nat) (calls : List (Nat × VisitorCall)) : List VisitorCall :=
  (calls.filter fun noted => noted.1 = number).map Prod.snd

theorem callsTo_append (number : Nat) (calls later : List (Nat × VisitorCall)) :
    callsTo number (calls ++ later) = callsTo number calls ++ callsTo number later := by
  rw [callsTo, List.filter_append, List.map_append]
  rfl

theorem callsTo_singleton (number receiver : Nat) (call : VisitorCall) :
    callsTo number [(receiver, call)] = if number = receiver then [call] else [] := by
  by_cases same : receiver = number
  · simp [callsTo, same]
  · simp [callsTo, same, Ne.symm same]

/-- What a visitor is told if `receiver` is told `own`, and the visitors from `next` on are told
what is listed in `inside`. -/
def tally (receiver : Nat) (own : List VisitorCall) (next : Nat)
    (inside : List (List VisitorCall)) (number : Nat) : List VisitorCall :=
  if number = receiver then own
  else if number < next then [] else (inside[number - next]?).getD []

section Tally

variable {receiver next number : Nat} {calls : List (Nat × VisitorCall)}

theorem callsTo_opening (earlier : receiver < next) {own : List VisitorCall}
    {inside : List (List VisitorCall)}
    (told : callsTo number calls = tally next own (next + 1) inside number) (call : VisitorCall) :
    callsTo number ((receiver, call) :: calls) =
      tally receiver [call] next (own :: inside) number := by
  rw [← List.singleton_append, callsTo_append, callsTo_singleton, told]
  unfold tally
  rcases Nat.lt_trichotomy number next with before | rfl | after
  · have notNext : number ≠ next := Nat.ne_of_lt before
    have notAfter : number < next + 1 := Nat.lt_succ_of_lt before
    rw [if_neg notNext, if_pos notAfter, List.append_nil, if_pos before]
  · have notReceiver : number ≠ receiver := Nat.ne_of_gt earlier
    simp [notReceiver]
  · have notReceiver : number ≠ receiver := Nat.ne_of_gt (Nat.lt_trans earlier after)
    have notNext : number ≠ next := Nat.ne_of_gt after
    have notBefore : ¬number < next := Nat.lt_asymm after
    have notWithin : ¬number < next + 1 := Nat.not_lt.mpr after
    have position : number - next = number - (next + 1) + 1 := by omega
    simp [notReceiver, notNext, notBefore, notWithin, position]

theorem callsTo_closing {own : List VisitorCall} {inside : List (List VisitorCall)}
    (told : callsTo number calls = tally receiver own next inside number) (call : VisitorCall) :
    callsTo number (calls ++ [(receiver, call)]) =
      tally receiver (own ++ [call]) next inside number := by
  rw [callsTo_append, callsTo_singleton, told]
  unfold tally
  by_cases same : number = receiver
  · rw [if_pos same, if_pos same, if_pos same]
  · rw [if_neg same, if_neg same, if_neg same, List.append_nil]

theorem tally_append (own later : List VisitorCall) (inside others : List (List VisitorCall)) :
    tally receiver own next inside number ++
        tally receiver later (next + inside.length) others number =
      tally receiver (own ++ later) next (inside ++ others) number := by
  unfold tally
  by_cases same : number = receiver
  · rw [if_pos same, if_pos same, if_pos same]
  rw [if_neg same, if_neg same, if_neg same]
  by_cases before : number < next
  · have notWithin : number < next + inside.length := Nat.lt_add_right _ before
    rw [if_pos before, if_pos before, if_pos notWithin, List.append_nil]
  by_cases within : number < next + inside.length
  · have position : number - next < inside.length := by omega
    rw [if_neg before, if_neg before, if_pos within, List.append_nil,
      List.getElem?_append_left position]
  · have position : inside.length ≤ number - next := by omega
    have shifted : number - next - inside.length = number - (next + inside.length) := by omega
    rw [if_neg before, if_neg before, if_neg within, List.getElem?_append_right position,
      List.getElem?_eq_none position, shifted]
    rfl

end Tally

mutual

/-- A value makes its one call, and all others are made on visitors opened for it. -/
theorem ElementValue.callsTo_calls {receiver next : Nat} (earlier : receiver < next)
    (name : Option String) (number : Nat) : (value : ElementValue) →
    callsTo number (value.calls receiver next name) =
      tally receiver [value.call name] next value.received number
  | .scalar _ | .enum _ => by
      rw [ElementValue.calls, callsTo_singleton]
      simp [tally, ElementValue.call, ElementValue.received]
  | .nested ⟨desc, _, params⟩ => by
      have below := ElementValue.callsTo_paramCalls (Nat.lt_succ_self next) number params
      exact callsTo_opening earlier (callsTo_closing below .finish) (.openNested name desc)
  | .array items => by
      have below := ElementValue.callsTo_itemCalls (Nat.lt_succ_self next) number items
      exact callsTo_opening earlier (callsTo_closing below .finish) (.openArray name)

theorem ElementValue.callsTo_itemCalls {receiver next : Nat} (earlier : receiver < next)
    (number : Nat) : (items : List ElementValue) →
    callsTo number (ElementValue.itemCalls receiver next items) =
      tally receiver (items.map (ElementValue.call none)) next (ElementValue.itemsReceived items)
        number
  | [] => by simp [ElementValue.itemCalls, callsTo, tally, ElementValue.itemsReceived]
  | item :: items => by
      have beyond : receiver < next + item.received.length := Nat.lt_add_right _ earlier
      rw [ElementValue.itemCalls, callsTo_append, ElementValue.callsTo_calls earlier,
        ElementValue.callsTo_itemCalls beyond, tally_append]
      rfl

theorem ElementValue.callsTo_paramCalls {receiver next : Nat} (earlier : receiver < next)
    (number : Nat) : (params : List (String × ElementValue)) →
    callsTo number (ElementValue.paramCalls receiver next params) =
      tally receiver (params.map fun param => param.2.call (some param.1)) next
        (ElementValue.paramsReceived params) number
  | [] => by simp [ElementValue.paramCalls, callsTo, tally, ElementValue.paramsReceived]
  | (name, value) :: rest => by
      have beyond : receiver < next + value.received.length := Nat.lt_add_right _ earlier
      rw [ElementValue.paramCalls, callsTo_append, ElementValue.callsTo_calls earlier,
        ElementValue.callsTo_paramCalls beyond, tally_append]
      rfl

end

/-! ### From the calls back to the annotation -/

theorem ElementValue.call_ne_finish (name : Option String) (value : ElementValue) :
    value.call name ≠ .finish := by
  cases value <;> nofun

theorem ElementValue.calls_ne_finish (receiver next : Nat) (name : Option String)
    (value : ElementValue) (rest others : List VisitorCall) :
    (value.calls receiver next name).map Prod.snd ++ rest ≠ .finish :: others := by
  cases value <;> nofun

mutual

/-- No two streams of calls are alike, whatever follows them, unless they are of one value under
one name, up to what is visible inside. -/
theorem ElementValue.eq_of_calls {receiver next receiver₂ next₂ : Nat}
    {name name₂ : Option String} {rest rest₂ : List VisitorCall} : (value other : ElementValue) →
    (value.calls receiver next name).map Prod.snd ++ rest =
      (other.calls receiver₂ next₂ name₂).map Prod.snd ++ rest₂ →
    name = name₂ ∧ value.normalize = other.normalize ∧ rest = rest₂
  | .scalar value, other, same => by
      cases other with
      | scalar =>
          cases same
          exact ⟨rfl, rfl, rfl⟩
      | enum | nested | array => cases same
  | .enum member, other, same => by
      cases other with
      | enum =>
          cases same
          exact ⟨rfl, rfl, rfl⟩
      | scalar | nested | array => cases same
  | .nested ⟨desc, visible, params⟩, other, same => by
      cases other with
      | scalar | enum | array => cases same
      | nested entry =>
          obtain ⟨desc₂, visible₂, others⟩ := entry
          simp only [ElementValue.calls, AnnotationEntry.calls, List.map_cons, List.map_append,
            List.map_nil, List.cons_append, List.append_assoc, List.nil_append, List.cons.injEq,
            VisitorCall.openNested.injEq] at same
          obtain ⟨⟨named, described⟩, inside⟩ := same
          obtain ⟨alike, goesOn⟩ := ElementValue.eq_of_paramCalls params others inside
          rw [ElementValue.normalize, ElementValue.normalize, AnnotationEntry.normalize,
            AnnotationEntry.normalize, described, alike]
          exact ⟨named, rfl, goesOn⟩
  | .array items, other, same => by
      cases other with
      | scalar | enum | nested => cases same
      | array others =>
          simp only [ElementValue.calls, List.map_cons, List.map_append, List.map_nil,
            List.cons_append, List.append_assoc, List.nil_append, List.cons.injEq,
            VisitorCall.openArray.injEq] at same
          obtain ⟨named, inside⟩ := same
          obtain ⟨alike, goesOn⟩ := ElementValue.eq_of_itemCalls items others inside
          rw [ElementValue.normalize, ElementValue.normalize, alike]
          exact ⟨named, rfl, goesOn⟩

theorem ElementValue.eq_of_itemCalls {receiver next receiver₂ next₂ : Nat}
    {rest rest₂ : List VisitorCall} : (items others : List ElementValue) →
    (ElementValue.itemCalls receiver next items).map Prod.snd ++ .finish :: rest =
      (ElementValue.itemCalls receiver₂ next₂ others).map Prod.snd ++ .finish :: rest₂ →
    ElementValue.normalizeItems items = ElementValue.normalizeItems others ∧ rest = rest₂
  | [], [], same => ⟨rfl, (List.cons.inj same).2⟩
  | [], other :: others, same => by
      simp only [ElementValue.itemCalls, List.map_append, List.append_assoc] at same
      exact absurd same.symm (other.calls_ne_finish _ _ _ _ _)
  | item :: items, [], same => by
      simp only [ElementValue.itemCalls, List.map_append, List.append_assoc] at same
      exact absurd same (item.calls_ne_finish _ _ _ _ _)
  | item :: items, other :: others, same => by
      rw [ElementValue.itemCalls, ElementValue.itemCalls, List.map_append, List.map_append,
        List.append_assoc, List.append_assoc] at same
      obtain ⟨_named, first, remaining⟩ := ElementValue.eq_of_calls item other same
      obtain ⟨later, rest⟩ := ElementValue.eq_of_itemCalls items others remaining
      rw [ElementValue.normalizeItems, ElementValue.normalizeItems, first, later]
      exact ⟨rfl, rest⟩

theorem ElementValue.eq_of_paramCalls {receiver next receiver₂ next₂ : Nat}
    {rest rest₂ : List VisitorCall} : (params others : List (String × ElementValue)) →
    (ElementValue.paramCalls receiver next params).map Prod.snd ++ .finish :: rest =
      (ElementValue.paramCalls receiver₂ next₂ others).map Prod.snd ++ .finish :: rest₂ →
    ElementValue.normalizeParams params = ElementValue.normalizeParams others ∧ rest = rest₂
  | [], [], same => ⟨rfl, (List.cons.inj same).2⟩
  | [], (otherName, other) :: others, same => by
      simp only [ElementValue.paramCalls, List.map_append, List.append_assoc] at same
      exact absurd same.symm (other.calls_ne_finish _ _ _ _ _)
  | (name, value) :: params, [], same => by
      simp only [ElementValue.paramCalls, List.map_append, List.append_assoc] at same
      exact absurd same (value.calls_ne_finish _ _ _ _ _)
  | (name, value) :: params, (otherName, other) :: others, same => by
      rw [ElementValue.paramCalls, ElementValue.paramCalls, List.map_append, List.map_append,
        List.append_assoc, List.append_assoc] at same
      obtain ⟨named, first, remaining⟩ := ElementValue.eq_of_calls value other same
      obtain ⟨later, rest⟩ := ElementValue.eq_of_paramCalls params others remaining
      rw [ElementValue.normalizeParams, ElementValue.normalizeParams, first, later,
        Option.some.inj named]
      exact ⟨rfl, rest⟩

end

/-! ### Annotations -/

namespace AnnotationEntry

def callsMade {State Visitor : Type} (visitors : AnnotationVisitor State Visitor)
    (root : Visitor) (state : State) (entry : AnnotationEntry) : List (Nat × VisitorCall) :=
  (entry.walk visitors.logged (root, 0) (state, .start)).2.calls

section Visitors

variable {State Visitor : Type} (visitors : AnnotationVisitor State Visitor) (root : Visitor)
  (state : State)

theorem callsMade_eq (entry : AnnotationEntry) :
    entry.callsMade visitors root state = entry.calls 0 1 := by
  rw [callsMade, entry.walk_logged]
  rfl

theorem callsMade_normalize (entry : AnnotationEntry) :
    entry.normalize.callsMade visitors root state = entry.callsMade visitors root state := by
  rw [callsMade, walk_normalize]
  rfl

theorem wellNested_calls (entry : AnnotationEntry) : WellNested (entry.calls 0 1) :=
  ⟨_, Nesting.run_entryCalls ⟨0, true⟩ rfl [] 1 entry⟩

theorem callsTo_calls (entry : AnnotationEntry) (number : Nat) :
    callsTo number (entry.calls 0 1) = (entry.received[number]?).getD [] := by
  obtain ⟨desc, visible, params⟩ := entry
  have below := ElementValue.callsTo_paramCalls Nat.zero_lt_one number params
  rw [calls, callsTo_closing below .finish]
  cases number with
  | zero => rfl
  | succ number => rfl

/-- Nothing comes after the end of the root. -/
theorem calls_eq_append_finish (entry : AnnotationEntry) :
    ∃ before, entry.calls 0 1 = before ++ [(0, .finish)] ∧ (0, .finish) ∉ before := by
  obtain ⟨desc, visible, params⟩ := entry
  refine ⟨_, rfl, fun member => ?_⟩
  have told := ElementValue.callsTo_paramCalls Nat.zero_lt_one 0 params
  have listed : VisitorCall.finish ∈ callsTo 0 (ElementValue.paramCalls 0 1 params) :=
    List.mem_map.mpr ⟨_, List.mem_filter.mpr ⟨member, rfl⟩, rfl⟩
  rw [told] at listed
  obtain ⟨param, _inside, same⟩ := List.mem_map.mp listed
  exact param.2.call_ne_finish _ same

theorem normalize_eq_of_calls {entry other : AnnotationEntry} (described : entry.desc = other.desc)
    (seen : entry.visible = other.visible)
    (same : (entry.calls 0 1).map Prod.snd = (other.calls 0 1).map Prod.snd) :
    entry.normalize = other.normalize := by
  obtain ⟨desc, visible, params⟩ := entry
  obtain ⟨desc₂, visible₂, others⟩ := other
  rw [calls, calls, List.map_append, List.map_append] at same
  obtain ⟨alike, _end⟩ := ElementValue.eq_of_paramCalls params others same
  simp only at described seen
  rw [normalize, normalize, described, seen, alike]

end Visitors

theorem visitor_calls_follow_protocol :
    (∀ (State Visitor : Type) (visitors : AnnotationVisitor State Visitor) (root : Visitor)
      (state : State) (entry : AnnotationEntry),
      entry.walk visitors root state =
        AnnotationEvent.driveAll visitors root state entry.script ∧
      (entry.walk visitors.logged (root, 0) (state, .start)).1 = entry.walk visitors root state ∧
      WellNested (entry.callsMade visitors root state) ∧
      (∀ number, callsTo number (entry.callsMade visitors root state) =
        (entry.received[number]?).getD []) ∧
      ∃ before, entry.callsMade visitors root state = before ++ [(0, .finish)] ∧
        (0, .finish) ∉ before) ∧
    ∀ (State Visitor : Type) (visitors : AnnotationVisitor State Visitor) (root : Visitor)
      (state : State) (entry other : AnnotationEntry),
      entry.desc = other.desc → entry.visible = other.visible →
      ((entry.callsMade visitors root state).map Prod.snd =
        (other.callsMade visitors root state).map Prod.snd ↔
      entry.normalize = other.normalize) := by
  refine ⟨fun State Visitor visitors root state entry => ?_,
    fun State Visitor visitors root state entry other described seen => ⟨fun same => ?_,
      fun alike => ?_⟩⟩
  · rw [callsMade_eq]
    refine ⟨entry.walk_eq_driveAll visitors root state, ?_, entry.wellNested_calls,
      entry.callsTo_calls, entry.calls_eq_append_finish⟩
    rw [entry.walk_logged]
  · rw [callsMade_eq, callsMade_eq] at same
    exact normalize_eq_of_calls described seen same
  · rw [← entry.callsMade_normalize, alike, other.callsMade_normalize]

def counting : AnnotationVisitor Nat Unit where
  visit _ _ _ count := count + 1
  visitEnum _ _ _ count := count + 1
  openNested _ _ _ count := ((), count + 1)
  openArray _ _ count := ((), count + 1)
  finish _ count := count + 1

theorem layered_calls :
    layered.walk counting () 0 = 11 ∧
      callsTo 2 (layered.callsMade counting () 0) =
        [.openArray none, .visitEnum none ⟨"E", "M"⟩, .finish] ∧
      (layered.callsMade counting () 0).map Prod.snd =
        (layered.normalize.callsMade counting () 0).map Prod.snd ∧
      layered.normalize = layered.normalize.normalize := by
  obtain ⟨obeys, determines⟩ := visitor_calls_follow_protocol
  have same : (layered.callsMade counting () 0).map Prod.snd =
      (layered.normalize.callsMade counting () 0).map Prod.snd := rfl
  have told := (obeys Nat Unit counting () 0 layered).2.2.2.1 2
  exact ⟨rfl, told, same, (determines Nat Unit counting () 0 layered layered.normalize rfl rfl).mp same⟩

end AnnotationEntry

end CompilerIR
