import CompilerIR.Program
import Mathlib.Data.Finset.Card
import Mathlib.Data.List.Induction

/-!
Interned strings and their names. Main statement: on a new interner every call answers with the
place of its string among the distinct strings in the order of first occurrence, and the two
tables stay inverse to each other.
-/

namespace CompilerIR

theorem bind_eq_ok {ε α β : Type} {action : Except ε α} {next : α → Except ε β} {result : β}
    (answered : action >>= next = .ok result) :
    ∃ value, action = .ok value ∧ next value = .ok result := by
  cases action with
  | error refusal => cases answered
  | ok value => exact ⟨value, rfl, answered⟩

/-- A table and its index that are inverse to each other stay so when a key that is not there yet
is added to both. -/
theorem lookup_cons_eq_some_iff {κ ι α : Type} [BEq κ] [LawfulBEq κ] {index : List (κ × ι)}
    {table : Array α} {entry : κ → α} {position : ι → Nat} {key : κ} {new : ι}
    (distinct : Function.Injective entry) (apart : Function.Injective position)
    (inverse : ∀ other place,
      index.lookup other = some place ↔ table[position place]? = some (entry other))
    (unknown : index.lookup key = none) (last : position new = table.size) (other : κ) (place : ι) :
    ((key, new) :: index).lookup other = some place ↔
      (table.push (entry key))[position place]? = some (entry other) := by
  rw [Array.getElem?_push]
  by_cases here : position place = table.size
  · rw [if_pos here, Option.some.injEq, distinct.eq_iff]
    have elsewhere : index.lookup other ≠ some place := by
      intro known
      have inside := (Array.getElem?_eq_some_iff.mp ((inverse other place).mp known)).1
      omega
    by_cases same : other = key
    · subst same
      rw [List.lookup_cons_self, apart (here.trans last.symm)]
      exact iff_of_true rfl rfl
    · rw [List.lookup_cons, beq_false_of_ne same]
      exact iff_of_false elsewhere (Ne.symm same)
  · rw [if_neg here, ← inverse]
    by_cases same : other = key
    · subst same
      rw [List.lookup_cons_self, unknown]
      refine iff_of_false ?_ nofun
      rintro ⟨⟩
      exact here last
    · rw [List.lookup_cons, beq_false_of_ne same]

namespace Interner

def interned (calls : List String) : List String := (seeds ++ calls).eraseDups

def addNew (texts : List String) (string : String) : List String :=
  if string ∈ texts then texts else texts ++ [string]

theorem prefix_addNew (texts : List String) (string : String) : texts <+: addNew texts string := by
  unfold addNew
  split
  · exact List.prefix_rfl
  · exact List.prefix_append _ _

theorem prefix_foldl_addNew (texts calls : List String) : texts <+: calls.foldl addNew texts := by
  induction calls generalizing texts with
  | nil => exact List.prefix_rfl
  | cons string rest inductionHypothesis =>
      exact (prefix_addNew texts string).trans (inductionHypothesis (addNew texts string))

theorem nodup_addNew {texts : List String} (distinct : texts.Nodup) (string : String) :
    (addNew texts string).Nodup := by
  unfold addNew
  split
  · exact distinct
  · rename_i fresh
    refine List.nodup_append.mpr ⟨distinct, List.nodup_singleton string, ?_⟩
    rintro text present other last rfl
    exact fresh (List.mem_singleton.mp last ▸ present)

theorem eraseDups_concat (texts : List String) (string : String) :
    (texts ++ [string]).eraseDups = addNew texts.eraseDups string := by
  rw [List.eraseDups_append, addNew]
  simp only [List.mem_eraseDups]
  by_cases known : string ∈ texts
  · simp [known, List.removeAll]
  · simp [known, List.removeAll, List.eraseDups_cons]

theorem interned_eq_foldl (calls : List String) : interned calls = calls.foldl addNew seeds := by
  induction calls using List.reverseRecOn with
  | nil => decide
  | append_singleton earlier last inductionHypothesis =>
      rw [interned, ← List.append_assoc, eraseDups_concat, List.foldl_append,
        ← inductionHypothesis]
      rfl

/-- The tables hold `texts`, and what is found in the one is stored in the other. -/
structure Holds (interner : Interner) (texts : List String) : Prop where
  strings : interner.strings.toList = texts
  inverse : ∀ string name,
    interner.name? string = some name ↔ interner.lookup? name = some string
  distinct : texts.Nodup
  room : texts.length ≤ UInt32.size

theorem holds_empty : empty.Holds [] where
  strings := rfl
  inverse string name := by simp [name?, lookup?, empty]
  distinct := List.nodup_nil
  room := Nat.zero_le _

section Step

variable {interner : Interner} {texts : List String} (holds : interner.Holds texts)

include holds

theorem Holds.size_eq : interner.size = texts.length := by
  rw [← holds.strings, Array.length_toList, size]

theorem Holds.lookup?_eq (name : Name) : interner.lookup? name = texts[name.index]? := by
  rw [lookup?, ← Array.getElem?_toList, holds.strings]

theorem Holds.index_eq {name : Name} {string : String}
    (found : interner.lookup? name = some string) : name.index = texts.idxOf string := by
  rw [holds.lookup?_eq] at found
  obtain ⟨inside, rfl⟩ := List.getElem?_eq_some_iff.mp found
  exact (holds.distinct.idxOf_getElem _ inside).symm

theorem Holds.name?_eq_none_iff (string : String) :
    interner.name? string = none ↔ string ∉ texts := by
  constructor
  · intro unnamed present
    obtain ⟨position, inside, rfl⟩ := List.getElem_of_mem present
    have number : (Handle.ofIndex position : Name).index = position :=
      Handle.index_ofIndex (Nat.lt_of_lt_of_le inside holds.room)
    have named := (holds.inverse texts[position] (.ofIndex position)).mpr (by
      rw [holds.lookup?_eq, number, List.getElem?_eq_getElem inside])
    rw [unnamed] at named
    cases named
  · intro absent
    cases named : interner.name? string with
    | none => rfl
    | some name =>
        have found := (holds.inverse string name).mp named
        rw [holds.lookup?_eq] at found
        exact absurd (List.mem_of_getElem? found) absent

/-- The new name is the only one that finds the new string, and is found by no other. -/
theorem Holds.inverse_issue {string : String} (fresh : string ∉ texts)
    (free : texts.length < UInt32.size) (other : String) (name : Name) :
    ((string, Handle.ofIndex texts.length) :: interner.names).lookup other = some name ↔
      (interner.strings.push string)[name.index]? = some other := by
  have last : (Handle.ofIndex texts.length : Name).index = interner.strings.size :=
    (Handle.index_ofIndex free).trans holds.size_eq.symm
  exact lookup_cons_eq_some_iff Function.injective_id Handle.index_injective holds.inverse
    ((holds.name?_eq_none_iff string).mpr fresh) last other name

theorem Holds.issue {string : String} (fresh : string ∉ texts)
    (free : texts.length < UInt32.size) :
    ∃ after, interner.issue string = .ok (.ofIndex texts.length, after) ∧
      after.Holds (texts ++ [string]) := by
  refine ⟨⟨(string, .ofIndex texts.length) :: interner.names, interner.strings.push string⟩,
    ?_, ?_, holds.inverse_issue fresh free, ?_, ?_⟩
  · rw [Interner.issue, holds.size_eq, if_pos free]
  · rw [Array.toList_push, holds.strings]
  · have distinct := nodup_addNew holds.distinct string
    rwa [addNew, if_neg fresh] at distinct
  · rw [List.length_append]
    exact free

theorem Holds.foldl_plant {more : List String} (distinct : (texts ++ more).Nodup)
    (room : (texts ++ more).length ≤ UInt32.size) :
    (more.foldl plant interner).Holds (texts ++ more) := by
  induction more generalizing interner texts with
  | nil =>
      rw [List.append_nil]
      exact holds
  | cons seed rest inductionHypothesis =>
      rw [List.append_cons] at distinct room ⊢
      have fresh : seed ∉ texts := by
        have apart := (List.nodup_append.mp (List.nodup_append.mp distinct).1).2.2
        exact fun present => apart seed present seed (List.mem_singleton_self seed) rfl
      have free : texts.length < UInt32.size := by
        rw [List.length_append, List.length_append, List.length_singleton] at room
        omega
      obtain ⟨after, issued, holdsAfter⟩ := holds.issue fresh free
      rw [List.foldl_cons, plant, issued]
      exact inductionHypothesis holdsAfter distinct room

/-- A string that is known keeps its name, and any other gets the next one. -/
theorem Holds.intern {string : String} (room : (addNew texts string).length ≤ UInt32.size) :
    ∃ name after, interner.intern string = .ok (name, after) ∧
      after.lookup? name = some string ∧ after.Holds (addNew texts string) := by
  cases named : interner.name? string with
  | some name =>
      have found := (holds.inverse string name).mp named
      have known : string ∈ texts := List.mem_of_getElem? ((holds.lookup?_eq name).symm.trans found)
      refine ⟨name, interner, ?_, found, ?_⟩
      · rw [Interner.intern, named]
      · rw [addNew, if_pos known]
        exact holds
  | none =>
      have fresh := (holds.name?_eq_none_iff string).mp named
      rw [addNew, if_neg fresh] at room ⊢
      rw [List.length_append] at room
      obtain ⟨after, issued, holdsAfter⟩ := holds.issue fresh room
      refine ⟨.ofIndex texts.length, after, ?_, ?_, holdsAfter⟩
      · rw [Interner.intern, named]
        exact issued
      · rw [holdsAfter.lookup?_eq, Handle.index_ofIndex room, List.getElem?_concat_length]

/-- An answer shows that there was room for it. -/
theorem Holds.intern_of_ok {after : Interner} {string : String} {name : Name}
    (answered : interner.intern string = .ok (name, after)) :
    after.lookup? name = some string ∧ after.Holds (addNew texts string) := by
  have room : (addNew texts string).length ≤ UInt32.size := by
    by_cases known : string ∈ texts
    · rw [addNew, if_pos known]
      exact holds.room
    · rw [Interner.intern, (holds.name?_eq_none_iff string).mpr known] at answered
      change interner.issue string = _ at answered
      rw [Interner.issue, holds.size_eq] at answered
      split at answered
      · rename_i free
        rw [addNew, if_neg known, List.length_append]
        exact free
      · cases answered
  obtain ⟨other, last, answeredToo, found, holdsLast⟩ := holds.intern room
  rw [answered] at answeredToo
  cases answeredToo
  exact ⟨found, holdsLast⟩

theorem Holds.intern_lookup? {name : Name} {string : String}
    (found : interner.lookup? name = some string) :
    interner.intern string = .ok (name, interner) := by
  rw [Interner.intern, (holds.inverse string name).mpr found]

end Step

theorem holds_seeded : seeded.Holds seeds :=
  holds_empty.foldl_plant (by decide) (by decide)

/-- What holds texts still finds them when more have been added behind them. -/
theorem Holds.lookup?_later {before after : Interner} {texts later : List String}
    (holds : before.Holds texts) (holdsAfter : after.Holds later) (grown : texts <+: later)
    {name : Name} {string : String} (found : before.lookup? name = some string) :
    after.lookup? name = some string := by
  rw [holds.lookup?_eq] at found
  rw [holdsAfter.lookup?_eq]
  obtain ⟨more, rfl⟩ := grown
  rw [List.getElem?_append_left (List.getElem?_eq_some_iff.mp found).1]
  exact found

/-! ### Calls one after the other -/

open Program (internEach)

theorem internEach_cons {interner middle last : Interner} {string : String} {name : Name}
    {rest : List String} {names : List Name}
    (first : interner.intern string = .ok (name, middle))
    (others : internEach middle rest = .ok (names, last)) :
    internEach interner (string :: rest) = .ok (name :: names, last) := by
  rw [internEach, first]
  change (internEach middle rest >>= fun answer => pure (name :: answer.1, answer.2)) = _
  rw [others]
  rfl

theorem internEach_cons_eq_ok {interner last : Interner} {string : String} {rest : List String}
    {names : List Name} (answered : internEach interner (string :: rest) = .ok (names, last)) :
    ∃ name middle others, interner.intern string = .ok (name, middle) ∧
      internEach middle rest = .ok (others, last) ∧ names = name :: others := by
  obtain ⟨⟨name, middle⟩, first, answered⟩ := bind_eq_ok answered
  obtain ⟨⟨others, _last⟩, later, same⟩ := bind_eq_ok answered
  cases same
  exact ⟨name, middle, others, first, later, rfl⟩

theorem Holds.internEach_of_ok {interner after : Interner} {texts calls : List String}
    {names : List Name} (holds : interner.Holds texts)
    (answered : internEach interner calls = .ok (names, after)) :
    after.Holds (calls.foldl addNew texts) ∧
      List.Forall₂ (fun string name => after.lookup? name = some string) calls names := by
  induction calls generalizing interner texts names with
  | nil =>
      cases answered
      exact ⟨holds, .nil⟩
  | cons string rest inductionHypothesis =>
      obtain ⟨name, middle, others, first, later, rfl⟩ := internEach_cons_eq_ok answered
      obtain ⟨found, holdsMiddle⟩ := holds.intern_of_ok first
      obtain ⟨holdsAfter, foundOthers⟩ := inductionHypothesis holdsMiddle later
      have grown := prefix_foldl_addNew (addNew texts string) rest
      exact ⟨holdsAfter, .cons (holdsMiddle.lookup?_later holdsAfter grown found) foundOthers⟩

theorem Holds.internEach {interner : Interner} {texts : List String} (holds : interner.Holds texts)
    {calls : List String} (room : (calls.foldl addNew texts).length ≤ UInt32.size) :
    ∃ names after, internEach interner calls = .ok (names, after) ∧
      after.Holds (calls.foldl addNew texts) ∧
      List.Forall₂ (fun string name => after.lookup? name = some string) calls names := by
  have answers : ∃ names after, Program.internEach interner calls = .ok (names, after) := by
    induction calls generalizing interner texts with
    | nil => exact ⟨[], interner, rfl⟩
    | cons string rest inductionHypothesis =>
        rw [List.foldl_cons] at room
        have grown := prefix_foldl_addNew (addNew texts string) rest
        obtain ⟨name, middle, answered, _found, holdsMiddle⟩ :=
          holds.intern (Nat.le_trans grown.length_le room)
        obtain ⟨names, after, others⟩ := inductionHypothesis holdsMiddle room
        exact ⟨name :: names, after, internEach_cons answered others⟩
  obtain ⟨names, after, answered⟩ := answers
  exact ⟨names, after, answered, holds.internEach_of_ok answered⟩

theorem internEach_append {interner middle last : Interner} {earlier later : List String}
    {issued names : List Name} (first : internEach interner earlier = .ok (issued, middle))
    (second : internEach middle later = .ok (names, last)) :
    internEach interner (earlier ++ later) = .ok (issued ++ names, last) := by
  induction earlier generalizing interner issued with
  | nil =>
      cases first
      exact second
  | cons string rest inductionHypothesis =>
      obtain ⟨name, next, others, answered, issuedOthers, rfl⟩ := internEach_cons_eq_ok first
      exact internEach_cons answered (inductionHypothesis issuedOthers)

/-! ### A new interner -/

theorem nodup_interned (calls : List String) : (interned calls).Nodup := by
  rw [interned_eq_foldl]
  induction calls using List.reverseRecOn with
  | nil => decide
  | append_singleton earlier last inductionHypothesis =>
      rw [List.foldl_append]
      exact nodup_addNew inductionHypothesis last

theorem length_interned (calls : List String) :
    (interned calls).length = (seeds ++ calls).toFinset.card := by
  rw [← List.toFinset_card_of_nodup (nodup_interned calls)]
  congr 1
  ext string
  rw [List.mem_toFinset, List.mem_toFinset, interned, List.mem_eraseDups]

theorem interned_append (earlier later : List String) :
    interned (earlier ++ later) = later.foldl addNew (interned earlier) := by
  rw [interned_eq_foldl, interned_eq_foldl, List.foldl_append]

/-- Where a string stands does not change when more strings follow. -/
theorem idxOf_interned {calls : List String} {call : Nat} {string : String}
    (present : calls[call]? = some string) :
    (interned (calls.take (call + 1))).idxOf string = (interned calls).idxOf string := by
  have split := interned_append (calls.take (call + 1)) (calls.drop (call + 1))
  obtain ⟨more, grown⟩ :=
    prefix_foldl_addNew (interned (calls.take (call + 1))) (calls.drop (call + 1))
  have known : string ∈ interned (calls.take (call + 1)) := by
    rw [interned, List.mem_eraseDups, List.mem_append]
    right
    apply List.mem_of_getElem? (i := call)
    rw [List.getElem?_take_of_lt (Nat.lt_succ_self call), present]
  rw [List.take_append_drop] at split
  rw [split, ← grown, List.idxOf_append_of_mem known]

theorem internEach_seeded {calls : List String} (room : (interned calls).length ≤ UInt32.size) :
    ∃ names after, internEach seeded calls = .ok (names, after) ∧ after.Holds (interned calls) ∧
      List.Forall₂ (fun string name => after.lookup? name = some string) calls names := by
  rw [interned_eq_foldl] at room ⊢
  exact holds_seeded.internEach room

/-- Calls may be stopped at and gone on with. -/
theorem internEach_seeded_append {earlier later : List String}
    (room : (interned (earlier ++ later)).length ≤ UInt32.size) :
    ∃ issued before rest after, internEach seeded earlier = .ok (issued, before) ∧
      internEach before later = .ok (rest, after) ∧
      internEach seeded (earlier ++ later) = .ok (issued ++ rest, after) ∧
      ∀ name text, before.lookup? name = some text → after.lookup? name = some text := by
  have grown := prefix_foldl_addNew (interned earlier) later
  rw [interned_append] at room
  obtain ⟨issued, before, first, holds, _found⟩ :=
    internEach_seeded (Nat.le_trans grown.length_le room)
  obtain ⟨rest, after, second, holdsAfter, _foundLater⟩ := holds.internEach room
  exact ⟨issued, before, rest, after, first, second, internEach_append first second,
    fun name text here => holds.lookup?_later holdsAfter grown here⟩

private theorem getElem?_eq_iff_of_map {α β : Type} {left : α → Option β} {right : β → Option α}
    {entries : List α} {others : List β} (there : entries.map left = others.map some)
    (back : others.map right = entries.map some) (first second : Nat) :
    others[first]? = others[second]? ↔ entries[first]? = entries[second]? := by
  have thereAt (position : Nat) : entries[position]?.map left = others[position]?.map some := by
    rw [← List.getElem?_map, there, List.getElem?_map]
  have backAt (position : Nat) : others[position]?.map right = entries[position]?.map some := by
    rw [← List.getElem?_map, back, List.getElem?_map]
  constructor
  · intro same
    apply Option.map_injective (Option.some_injective α)
    rw [← backAt, ← backAt, same]
  · intro same
    apply Option.map_injective (Option.some_injective β)
    rw [← thereAt, ← thereAt, same]

/-- Equal strings have equal names, and different strings different ones. -/
theorem Holds.names_eq_iff {interner : Interner} {texts calls : List String} {names : List Name}
    (holds : interner.Holds texts)
    (found : List.Forall₂ (fun string name => interner.lookup? name = some string) calls names)
    (first second : Nat) :
    names[first]? = names[second]? ↔ calls[first]? = calls[second]? := by
  have named : calls.map interner.name? = names.map some := by
    rw [← List.forall₂_eq_eq_eq, List.forall₂_map_left_iff, List.forall₂_map_right_iff]
    exact found.imp fun string name here => (holds.inverse string name).mpr here
  have looked : names.map interner.lookup? = calls.map some := by
    rw [← List.forall₂_eq_eq_eq, List.forall₂_map_left_iff, List.forall₂_map_right_iff]
    exact found.flip
  exact getElem?_eq_iff_of_map named looked first second

/-- As many distinct strings as there are names find room. -/
theorem interner_numbers_first_occurrences {calls : List String}
    (room : (seeds ++ calls).toFinset.card ≤ UInt32.size) :
    ∃ names after, internEach seeded calls = .ok (names, after) ∧
      names.length = calls.length ∧
      (∀ (call : Nat) string name, calls[call]? = some string → names[call]? = some name →
        name.index = (interned (calls.take (call + 1))).idxOf string ∧
        after.lookup? name = some string) ∧
      (∀ first second : Nat, names[first]? = names[second]? ↔ calls[first]? = calls[second]?) ∧
      (∀ name text, after.lookup? name = some text → after.intern text = .ok (name, after)) ∧
      (∀ earlier later, calls = earlier ++ later →
        ∃ issued before rest, internEach seeded earlier = .ok (issued, before) ∧
          internEach before later = .ok (rest, after) ∧ names = issued ++ rest ∧
          ∀ name text, before.lookup? name = some text → after.lookup? name = some text) ∧
      after.size = (seeds ++ calls).toFinset.card ∧
      ∀ name, (∃ text, after.lookup? name = some text) ↔ name.index < after.size := by
  rw [← length_interned] at room ⊢
  obtain ⟨names, after, answered, holds, found⟩ := internEach_seeded room
  refine ⟨names, after, answered, found.length_eq.symm, ?_, holds.names_eq_iff found, ?_, ?_,
    holds.size_eq, ?_⟩
  · intro call string name called named
    obtain ⟨inside, rfl⟩ := List.getElem?_eq_some_iff.mp called
    obtain ⟨insideNames, rfl⟩ := List.getElem?_eq_some_iff.mp named
    have here := found.get inside insideNames
    exact ⟨(holds.index_eq here).trans (idxOf_interned called).symm, here⟩
  · exact fun name text here => holds.intern_lookup? here
  · rintro earlier later rfl
    obtain ⟨issued, before, rest, last, first, second, both, kept⟩ := internEach_seeded_append room
    rw [answered] at both
    cases both
    exact ⟨issued, before, rest, first, second, rfl, kept⟩
  · intro name
    rw [holds.size_eq, holds.lookup?_eq]
    constructor
    · rintro ⟨text, found⟩
      exact (List.getElem?_eq_some_iff.mp found).1
    · exact fun inside => ⟨_, List.getElem?_eq_getElem inside⟩

def repeated : List String := ["a", "java.lang.String", "a", "b", ""]

theorem repeated_names :
    (seeds ++ repeated).toFinset.card ≤ UInt32.size ∧
      ∃ names after, internEach seeded repeated = .ok (names, after) ∧
        names = [⟨4⟩, ⟨2⟩, ⟨4⟩, ⟨5⟩, ⟨0⟩] ∧ after.size = 6 ∧
        after.intern "java.lang.Class" = .ok (⟨3⟩, after) := by
  have room : (seeds ++ repeated).toFinset.card ≤ UInt32.size := by decide
  obtain ⟨names, after, answered, _counted, _places, _names, again, grown, size, _found⟩ :=
    interner_numbers_first_occurrences room
  have run : (internEach seeded repeated).map Prod.fst = .ok [⟨4⟩, ⟨2⟩, ⟨4⟩, ⟨5⟩, ⟨0⟩] := by
    decide
  rw [answered] at run
  refine ⟨room, names, after, answered, ?_, size.trans (by decide), again ⟨3⟩ _ ?_⟩
  · cases run
    rfl
  · obtain ⟨_issued, before, _rest, nothing, _others, _names, kept⟩ := grown [] repeated rfl
    cases nothing
    exact kept ⟨3⟩ _ (by decide)

end Interner

end CompilerIR
