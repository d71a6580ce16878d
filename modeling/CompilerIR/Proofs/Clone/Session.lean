import CompilerIR.Proofs.Clone.Soundness

/-!
Sessions, in which an arena is built and cloned from through its interface. Main statement:
in whatever order this is done, every request to clone is met.
-/

namespace CompilerIR

structure Session where
  arena : Arena
  ranges : List ExprRange

inductive Request
  | alloc (node : Node)
  /-- A list that no range can hold is refused, and the arena stays as it was. -/
  | pushExprs (ids : List ExprId)
  | pushTypes (types : List TypeId)
  | allocThis (span : Span) (classType : TypeId)
  | clone (id : ExprId)
  | cloneAll (ids : Option (List ExprId))

namespace Session

def empty : Session := ⟨.empty, []⟩

def perform (session : Session) : Request → Session
  | .alloc node => ⟨(session.arena.alloc node).2, session.ranges⟩
  | .pushExprs ids =>
      match session.arena.pushExprs ids with
      | .error _ => session
      | .ok (range, arena) => ⟨arena, range :: session.ranges⟩
  | .pushTypes types => ⟨(session.arena.pushTypes types).2, session.ranges⟩
  | .allocThis span classType => ⟨(session.arena.allocThis span classType).2, session.ranges⟩
  | .clone id => ⟨(session.arena.clone id).2, session.ranges⟩
  | .cloneAll ids => ⟨(session.arena.cloneAll ids).2, session.ranges⟩

def performAll (session : Session) (requests : List Request) : Session :=
  requests.foldl perform session

/-- What the maker of a node can put into its slots: a node it was given an identity of, and a
range that it was given or that it finds in another node, such as a clone. -/
def Knows (session : Session) : Slot → Prop
  | .child id => session.arena.Admits id
  | .list range => range.isEmpty = true ∨ range ∈ session.ranges ∨
      ∃ node ∈ session.arena.nodes.toList, Slot.list range ∈ node.kind.slots

def Allows (session : Session) : Request → Prop
  | .alloc node => ∀ slot ∈ node.kind.slots, session.Knows slot
  | .pushExprs ids => ∀ id ∈ ids, session.arena.Admits id
  | .pushTypes _ | .allocThis _ _ => True
  | .clone id => session.arena.Admits id
  | .cloneAll ids => ∀ present ∈ ids, ∀ id ∈ present, session.arena.Admits id

def AllowsAll : Session → List Request → Prop
  | _, [] => True
  | session, request :: rest => session.Allows request ∧ (session.perform request).AllowsAll rest

instance (session : Session) : DecidablePred session.Knows
  | .child id => inferInstanceAs (Decidable (session.arena.Admits id))
  | .list range => inferInstanceAs (Decidable (range.isEmpty = true ∨ range ∈ session.ranges ∨
      ∃ node ∈ session.arena.nodes.toList, Slot.list range ∈ node.kind.slots))

instance (session : Session) : DecidablePred session.Allows
  | .alloc node => inferInstanceAs (Decidable (∀ slot ∈ node.kind.slots, session.Knows slot))
  | .pushExprs ids => inferInstanceAs (Decidable (∀ id ∈ ids, session.arena.Admits id))
  | .pushTypes _ | .allocThis _ _ => .isTrue trivial
  | .clone id => inferInstanceAs (Decidable (session.arena.Admits id))
  | .cloneAll ids =>
      inferInstanceAs (Decidable (∀ present ∈ ids, ∀ id ∈ present, session.arena.Admits id))

instance decidableAllowsAll : (session : Session) → DecidablePred session.AllowsAll
  | _, [] => .isTrue trivial
  | session, request :: rest =>
      have := decidableAllowsAll (session.perform request) rest
      inferInstanceAs (Decidable (session.Allows request ∧ _))

structure Sound (session : Session) : Prop where
  arena : session.arena.Sound
  ranges : ∀ range ∈ session.ranges, (Slot.list range).Admitted session.arena

theorem sound_empty : empty.Sound where
  arena := Arena.sound_empty
  ranges range given := by cases given

section Step

variable {session : Session} (sound : session.Sound)

include sound

theorem Sound.admitted_of_knows {slot : Slot} (knows : session.Knows slot) :
    slot.Admitted session.arena := by
  cases slot with
  | child id => exact knows
  | list range =>
      rcases knows with isEmpty | given | ⟨node, present, member⟩
      · exact Or.inl isEmpty
      · exact sound.ranges range given
      · exact sound.arena.listsInside node (Array.mem_toList_iff.mp present) _ member

theorem Sound.grow {after : Arena} (extended : session.arena.Extends after)
    (soundAfter : after.Sound) : Sound ⟨after, session.ranges⟩ :=
  ⟨soundAfter, fun range given => extended.admitted (sound.ranges range given)⟩

theorem Sound.perform {request : Request} (allowed : session.Allows request) :
    (session.perform request).Sound := by
  cases request with
  | alloc node =>
      apply sound.grow (session.arena.alloc_extends node)
      exact sound.arena.alloc fun slot member => sound.admitted_of_knows (allowed slot member)
  | pushExprs ids =>
      by_cases short : ids.length ≤ ListRange.maxLength
      · have extended := session.arena.storeExprs_extends ids
        simp only [Session.perform, Arena.pushExprs, if_pos short]
        refine ⟨sound.arena.storeExprs allowed, ?_⟩
        intro range given
        rcases List.mem_cons.mp given with rfl | earlier
        · exact session.arena.admitted_storeExprs ids
        · exact extended.admitted (sound.ranges range earlier)
      · simp only [Session.perform, Arena.pushExprs, if_neg short]
        exact sound
  | pushTypes types => exact ⟨sound.arena.pushTypes types, sound.ranges⟩
  | allocThis span classType =>
      apply sound.grow (session.arena.alloc_extends _)
      exact sound.arena.alloc fun slot member => by cases member
  | clone id =>
      exact sound.grow (session.arena.clone_extends id) (Arena.clone_sound sound.arena id).arena
  | cloneAll ids =>
      exact sound.grow (session.arena.cloneAll_extends ids)
        (Arena.cloneAll_sound sound.arena ids).arena

end Step

theorem Sound.performAll {session : Session} (sound : session.Sound) {done rest : List Request}
    (allowed : session.AllowsAll (done ++ rest)) :
    (session.performAll done).Sound ∧ (session.performAll done).AllowsAll rest := by
  induction done generalizing session with
  | nil => exact ⟨sound, allowed⟩
  | cons request done inductionHypothesis =>
      exact inductionHypothesis (sound.perform allowed.1) allowed.2

theorem requests_to_clone_are_met {requests : List Request} (allowed : empty.AllowsAll requests)
    {done : List Request} (performed : done <+: requests) :
    (∀ owner, (empty.performAll done).arena.ChildrenPrecede owner ∧
      (empty.performAll done).arena.ListsInside owner) ∧
    (∀ id, done ++ [.clone id] <+: requests →
      ∃ copy, ((empty.performAll done).arena.clone id).1 = .ok copy) ∧
    ∀ ids, done ++ [.cloneAll ids] <+: requests →
      ∃ copies, ((empty.performAll done).arena.cloneAll ids).1 = .ok copies := by
  -- Nothing hinges on how far the arena grows, so no bound on it is asked for.
  have reached (rest : List Request) (split : done ++ rest = requests) :=
    sound_empty.performAll (split.symm ▸ allowed)
  obtain ⟨rest, split⟩ := performed
  have sound := (reached rest split).1.arena
  refine ⟨fun owner => sound.wellFormedAt owner owner .refl, ?_, ?_⟩
  · rintro id ⟨later, split⟩
    rw [List.append_assoc] at split
    obtain ⟨copy, after, met⟩ := sound.clone_ok (reached _ split).2.1
    exact ⟨copy, congrArg Prod.fst met⟩
  · rintro ids ⟨later, split⟩
    rw [List.append_assoc] at split
    obtain ⟨copies, after, met⟩ := sound.cloneAll_ok (reached _ split).2.1
    exact ⟨copies, congrArg Prod.fst met⟩

/-- A list with an empty entry serves two nodes, one of which has a range without entries
that starts nowhere. Then clones are cloned, and a clone's list is given to a node. -/
def buildAndClone : List Request :=
  [.alloc ⟨.int 7, ⟨0, 1⟩, .int⟩, .alloc ⟨.localRef ⟨0⟩, ⟨2, 3⟩, .int⟩,
    .pushExprs [⟨1⟩, .invalid, ⟨0⟩, ⟨1⟩], .pushTypes [.int, .root],
    .alloc ⟨.methodCall .invalid ⟨0⟩ ⟨0, 4⟩ true, ⟨0, 5⟩, .int⟩,
    .alloc ⟨.newArray .root (some ⟨9, 0⟩) (some ⟨0, 4⟩) ⟨70, 3⟩, ⟨0, 8⟩, .root⟩,
    .allocThis ⟨0, 4⟩ .root, .pushExprs [⟨2⟩, ⟨3⟩, ⟨4⟩],
    .alloc ⟨.multi ⟨4, 3⟩, ⟨0, 9⟩, .root⟩, .clone ⟨5⟩,
    .cloneAll (some [⟨12⟩, .invalid, ⟨8⟩]),
    .alloc ⟨.deferredCreate .root ⟨0, 2⟩ ⟨7, 4⟩, ⟨0, 9⟩, .root⟩, .clone ⟨18⟩]

theorem buildAndClone_is_met : empty.AllowsAll buildAndClone ∧
    buildAndClone.take 12 <+: buildAndClone ∧
    ∃ copy, ((empty.performAll (buildAndClone.take 12)).arena.clone ⟨18⟩).1 = .ok copy := by
  have allowed : empty.AllowsAll buildAndClone := by decide +kernel
  have performed : buildAndClone.take 12 <+: buildAndClone := List.take_prefix _ _
  have last : buildAndClone.take 12 ++ [.clone ⟨18⟩] <+: buildAndClone := List.prefix_rfl
  exact ⟨allowed, performed, (requests_to_clone_are_met allowed performed).2.1 _ last⟩

end Session

end CompilerIR
