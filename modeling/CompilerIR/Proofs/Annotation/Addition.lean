import CompilerIR.Annotation.Text
import CompilerIR.Proofs.Annotation.Parameters

/-!
Values added to an annotation one after the other. Main statement: over every map that keeps the
order of its insertions, each name stands where it was first given, with the value that it was
given last; each call answers the value it replaces; and the text follows the same order.
-/

namespace CompilerIR

/-! ### Maps in the order of insertion -/

/-- A way of keeping the parameters of an annotation, by what can be asked of it. -/
structure OrderedMap (Map : Type) where
  empty : Map
  entries (map : Map) : List (String × ElementValue)
  get? (map : Map) (name : String) : Option ElementValue
  /-- Gives the value that is replaced, if any. -/
  insert (map : Map) (name : String) (value : ElementValue) : Option ElementValue × Map

/-- What is promised of one insertion: a known name keeps its place and changes its value, and a
new one comes last. -/
structure OrderedMap.KeepsOrder {Map : Type} (maps : OrderedMap Map) : Prop where
  entries_empty : maps.entries maps.empty = []
  get?_eq : ∀ map name, maps.get? map name = (maps.entries map).lookup name
  insert_known : ∀ map name value before old after,
    maps.entries map = before ++ (name, old) :: after → name ∉ before.map Prod.fst →
    (maps.insert map name value).1 = some old ∧
      maps.entries (maps.insert map name value).2 = before ++ (name, value) :: after
  insert_new : ∀ map name value, name ∉ (maps.entries map).map Prod.fst →
    (maps.insert map name value).1 = none ∧
      maps.entries (maps.insert map name value).2 = maps.entries map ++ [(name, value)]

namespace Parameters

theorem get?_eq_lookup (name : String) (params : Parameters) :
    get? name params = params.lookup name := by
  induction params with
  | nil => rfl
  | cons first rest inductionHypothesis =>
      obtain ⟨held, old⟩ := first
      rw [get?, List.lookup_cons, inductionHypothesis]
      by_cases same : held = name
      · rw [if_pos same, same, beq_self_eq_true]
      · rw [if_neg same, beq_false_of_ne (Ne.symm same)]

theorem forall_ne_iff {name : String} {params : Parameters} :
    (∀ entry ∈ params, (name != entry.1) = true) ↔ name ∉ params.map Prod.fst := by
  simp only [bne_iff_ne, ne_eq, List.mem_map, not_exists, not_and, @eq_comm String name]

theorem lookup_eq_none_iff {name : String} {params : Parameters} :
    params.lookup name = none ↔ name ∉ params.map Prod.fst :=
  List.lookup_eq_none_iff.trans forall_ne_iff

theorem lookup_eq_some_iff {name : String} {params : Parameters} {value : ElementValue} :
    params.lookup name = some value ↔
      ∃ before after, params = before ++ (name, value) :: after ∧ name ∉ before.map Prod.fst := by
  simp only [List.lookup_eq_some_iff, forall_ne_iff]

theorem insert_of_split {name : String} {before : Parameters} (fresh : name ∉ before.map Prod.fst)
    (old value : ElementValue) (after : Parameters) :
    insert name value (before ++ (name, old) :: after) = before ++ (name, value) :: after := by
  induction before with
  | nil => exact if_pos rfl
  | cons first rest inductionHypothesis =>
      obtain ⟨held, older⟩ := first
      rw [List.map_cons, List.mem_cons, not_or] at fresh
      rw [List.cons_append, insert, if_neg (Ne.symm fresh.1), List.cons_append,
        inductionHypothesis fresh.2]

theorem mem_iff_get? {params : Parameters} (distinct : (params.map Prod.fst).Nodup)
    (name : String) (value : ElementValue) :
    (name, value) ∈ params ↔ get? name params = some value := by
  induction params with
  | nil => simp [get?]
  | cons first rest inductionHypothesis =>
      obtain ⟨held, old⟩ := first
      rw [List.map_cons, List.nodup_cons] at distinct
      rw [List.mem_cons, Prod.mk.injEq, get?]
      split
      · rename_i same
        subst same
        have nowhereElse : (held, value) ∉ rest := fun member =>
          distinct.1 (List.mem_map.mpr ⟨(held, value), member, rfl⟩)
        simp [nowhereElse, eq_comm]
      · rename_i other
        rw [inductionHypothesis distinct.2]
        simp [Ne.symm other]

def listed : OrderedMap Parameters where
  empty := []
  entries params := params
  get? params name := get? name params
  insert params name value := (get? name params, params.insert name value)

theorem listed_keepsOrder : listed.KeepsOrder where
  entries_empty := rfl
  get?_eq params name := get?_eq_lookup name params
  insert_known params name value before old after split fresh := by
    have found : get? name params = some old := by
      rw [get?_eq_lookup, lookup_eq_some_iff]
      exact ⟨before, after, split, fresh⟩
    have replaced : insert name value params = before ++ (name, value) :: after := by
      rw [show params = before ++ (name, old) :: after from split, insert_of_split fresh]
    exact ⟨found, replaced⟩
  insert_new params name value fresh := by
    have missing : get? name params = none := by
      rw [get?_eq_lookup, lookup_eq_none_iff]
      exact fresh
    exact ⟨missing, insert_of_not_mem fresh value⟩

end Parameters

/-- All such maps treat one insertion alike. -/
theorem OrderedMap.KeepsOrder.insert_eq {Map : Type} {maps : OrderedMap Map}
    (ordered : maps.KeepsOrder) (map : Map) (name : String) (value : ElementValue) :
    (maps.insert map name value).1 = Parameters.get? name (maps.entries map) ∧
      maps.entries (maps.insert map name value).2 =
        Parameters.insert name value (maps.entries map) := by
  rw [Parameters.get?_eq_lookup]
  cases found : (maps.entries map).lookup name with
  | none =>
      have fresh := Parameters.lookup_eq_none_iff.mp found
      rw [Parameters.insert_of_not_mem fresh]
      exact ordered.insert_new map name value fresh
  | some old =>
      obtain ⟨before, after, split, fresh⟩ := Parameters.lookup_eq_some_iff.mp found
      obtain ⟨answer, replaced⟩ := ordered.insert_known map name value before old after split fresh
      rw [split, Parameters.insert_of_split fresh]
      exact ⟨answer, replaced⟩

/-! ### Calls one after the other -/

section Assign

variable {State : Type} (assign : State → String → ElementValue → Option ElementValue × State)

def assignAll (state : State) : List (String × ElementValue) → List (Option ElementValue) × State
  | [] => ([], state)
  | (name, value) :: calls =>
      let assigned := assign state name value
      let others := assignAll assigned.2 calls
      (assigned.1 :: others.1, others.2)

theorem assignAll_append (state : State) (earlier later : List (String × ElementValue)) :
    assignAll assign state (earlier ++ later) =
      let before := assignAll assign state earlier
      let after := assignAll assign before.2 later
      (before.1 ++ after.1, after.2) := by
  induction earlier generalizing state with
  | nil => rfl
  | cons call calls inductionHypothesis =>
      obtain ⟨name, value⟩ := call
      simp only [List.cons_append, assignAll, inductionHypothesis]

theorem length_assignAll (state : State) (calls : List (String × ElementValue)) :
    (assignAll assign state calls).1.length = calls.length := by
  induction calls generalizing state with
  | nil => rfl
  | cons call calls inductionHypothesis =>
      obtain ⟨name, value⟩ := call
      simp only [assignAll, List.length_cons, inductionHypothesis]

/-- What a call answers depends on the calls before it alone. -/
theorem getElem?_assignAll (state : State) (earlier later : List (String × ElementValue))
    (name : String) (value : ElementValue) :
    (assignAll assign state (earlier ++ (name, value) :: later)).1[earlier.length]? =
      some (assign (assignAll assign state earlier).2 name value).1 := by
  have counted := length_assignAll assign state earlier
  simp only [assignAll_append, assignAll]
  rw [List.getElem?_append_right (Nat.le_of_eq counted), counted, Nat.sub_self,
    List.getElem?_cons_zero]

end Assign

/-- Annotations over any such map are told apart by nothing but what they hold. -/
theorem OrderedMap.KeepsOrder.assignAll_insert {Map : Type} {maps : OrderedMap Map}
    (ordered : maps.KeepsOrder) (entry : AnnotationEntry) (map : Map)
    (alike : maps.entries map = entry.params) (calls : List (String × ElementValue)) :
    let stored := assignAll maps.insert map calls
    let added := assignAll AnnotationEntry.add entry calls
    stored.1 = added.1 ∧ maps.entries stored.2 = added.2.params := by
  induction calls generalizing entry map with
  | nil => exact ⟨rfl, alike⟩
  | cons call calls inductionHypothesis =>
      obtain ⟨name, value⟩ := call
      obtain ⟨answer, inserted⟩ := ordered.insert_eq map name value
      rw [alike] at answer inserted
      obtain ⟨answers, last⟩ :=
        inductionHypothesis (entry.add name value).2 (maps.insert map name value).2 inserted
      simp only [assignAll]
      exact ⟨congrArg₂ List.cons answer answers, last⟩

namespace AnnotationEntry

theorem assignAll_add (entry : AnnotationEntry) (calls : List (String × ElementValue)) :
    (assignAll add entry calls).2 =
      { entry with
        params := calls.foldl (fun params (name, value) => Parameters.insert name value params)
          entry.params } := by
  induction calls generalizing entry with
  | nil => cases entry; rfl
  | cons call calls inductionHypothesis =>
      obtain ⟨name, value⟩ := call
      simp only [assignAll, inductionHypothesis, List.foldl_cons]
      rfl

theorem assignAll_new (desc : String) (visible : Bool) (calls : List (String × ElementValue)) :
    (assignAll add (new desc visible) calls).2 = ⟨desc, visible, Parameters.ofList calls⟩ :=
  assignAll_add (new desc visible) calls

def shown (name : String) (value : ElementValue) : String :=
  if name = "" then value.text else name ++ "=" ++ value.text

theorem text_eq (entry : AnnotationEntry) :
    entry.text = "@" ++ entry.desc ++
      if entry.params.isEmpty then ""
      else "(" ++ ", ".intercalate (entry.params.map fun (name, value) => shown name value) ++ ")" := by
  have texts (params : Parameters) :
      ElementValue.paramTexts params = params.map fun (name, value) => shown name value := by
    induction params with
    | nil => rfl
    | cons first rest inductionHypothesis =>
        rw [ElementValue.paramTexts, inductionHypothesis]
        rfl
  obtain ⟨desc, visible, params⟩ := entry
  cases params with
  | nil => exact (String.append_empty).symm
  | cons first rest =>
      rw [text, texts, List.isEmpty_cons, if_neg Bool.false_ne_true]
      · simp only [String.append_assoc]
      · nofun

structure Assigned (calls : List (String × ElementValue)) (answers : List (Option ElementValue))
    (entry : AnnotationEntry) : Prop where
  /-- Each name once, in the order in which they were first given. -/
  names : entry.params.map Prod.fst = (calls.map Prod.fst).eraseDups
  distinct : (entry.params.map Prod.fst).Nodup
  /-- Every name with the value given last. -/
  values : ∀ name value, (name, value) ∈ entry.params ↔ calls.reverse.lookup name = some value
  found : ∀ name, entry.get? name = calls.reverse.lookup name
  answerCount : answers.length = calls.length
  /-- A call answers the value that its name was given last before. -/
  answered : ∀ earlier name value later, calls = earlier ++ (name, value) :: later →
    answers[earlier.length]? = some (earlier.reverse.lookup name)
  text : entry.text = "@" ++ entry.desc ++
    if calls.isEmpty then ""
    else "(" ++ ", ".intercalate (entry.params.map fun (name, value) => shown name value) ++ ")"

theorem isEmpty_ofList (calls : List (String × ElementValue)) :
    (Parameters.ofList calls).isEmpty = calls.isEmpty := by
  have names := Parameters.names_ofList calls
  cases calls with
  | nil => rfl
  | cons call calls =>
      rw [List.map_cons, List.eraseDups_cons] at names
      cases held : Parameters.ofList (call :: calls) with
      | nil =>
          rw [held] at names
          cases names
      | cons first rest => rfl

theorem assigned_new (desc : String) (visible : Bool) (calls : List (String × ElementValue)) :
    let added := assignAll add (new desc visible) calls
    Assigned calls added.1 added.2 := by
  have distinct := Parameters.nodup_names_ofList calls
  have held := assignAll_new desc visible calls
  constructor
  · rw [held]
    exact Parameters.names_ofList calls
  · rw [held]
    exact distinct
  · intro name value
    rw [held, ← Parameters.get?_ofList]
    exact Parameters.mem_iff_get? distinct name value
  · intro name
    rw [held]
    exact Parameters.get?_ofList calls name
  · exact length_assignAll add (new desc visible) calls
  · rintro earlier name value later rfl
    rw [getElem?_assignAll, assignAll_new]
    exact congrArg some (Parameters.get?_ofList earlier name)
  · rw [text_eq, held]
    dsimp only
    rw [isEmpty_ofList]

/-- Over any map that keeps the order of its insertions, names keep their first places and take
their last values. -/
theorem names_keep_first_places_and_last_values {Map : Type} {maps : OrderedMap Map}
    (ordered : maps.KeepsOrder) (desc : String) (visible : Bool)
    (calls : List (String × ElementValue)) :
    let stored := assignAll maps.insert maps.empty calls
    let entry : AnnotationEntry := ⟨desc, visible, maps.entries stored.2⟩
    assignAll add (new desc visible) calls = (stored.1, entry) ∧
      (∀ name, maps.get? stored.2 name = entry.get? name) ∧
      Assigned calls stored.1 entry := by
  obtain ⟨answers, entries⟩ :=
    ordered.assignAll_insert (new desc visible) maps.empty ordered.entries_empty calls
  have same : assignAll add (new desc visible) calls =
      ((assignAll maps.insert maps.empty calls).1,
        ⟨desc, visible, maps.entries (assignAll maps.insert maps.empty calls).2⟩) := by
    rw [answers, entries, assignAll_new, ← assignAll_new desc visible calls]
  refine ⟨same, fun name => ?_, ?_⟩
  · rw [ordered.get?_eq, ← Parameters.get?_eq_lookup]
    rfl
  · have assigned := assigned_new desc visible calls
    rw [same] at assigned
    exact assigned

def repeatedCalls : List (String × ElementValue) :=
  [("x", .scalar (.int 1)), ("y", .enum ⟨"E", "M"⟩), ("x", .array [.scalar (.bool true)]),
    ("", .nested ⟨"B", false, []⟩)]

theorem repeatedCalls_keep_places :
    Parameters.listed.KeepsOrder ∧
      assignAll Parameters.listed.insert [] repeatedCalls =
        ([none, none, some (.scalar (.int 1)), none],
          [("x", .array [.scalar (.bool true)]), ("y", .enum ⟨"E", "M"⟩),
            ("", .nested ⟨"B", false, []⟩)]) ∧
      Assigned repeatedCalls [none, none, some (.scalar (.int 1)), none]
        ⟨"A", true, [("x", .array [.scalar (.bool true)]), ("y", .enum ⟨"E", "M"⟩),
          ("", .nested ⟨"B", false, []⟩)]⟩ ∧
      (assignAll add (new "A" true) repeatedCalls).2.text =
        "@A(x=\x7btrue\x7d, y=E.M, @B)" := by
  have kept := Parameters.listed_keepsOrder
  obtain ⟨_same, _found, assigned⟩ :=
    names_keep_first_places_and_last_values kept "A" true repeatedCalls
  exact ⟨kept, rfl, assigned, rfl⟩

end AnnotationEntry

end CompilerIR
