import CompilerIR.Proofs.Arena.Soundness
import CompilerIR.Proofs.Clone.Isomorphism

/-!
Cloning in arenas in which everything refers to earlier nodes only. Main statements: every
request for a node of such an arena succeeds, and what it leaves behind is such an arena.
-/

namespace CompilerIR

open Arena

namespace CloneResult

variable {α β : Type}

structure Sound (Stands : Arena → α → Prop) (result : CloneResult α) : Prop where
  arena : result.2.Sound
  value : ∀ value, result.1 = .ok value → Stands result.2 value

theorem sound_iff_keeps {Stands : Arena → α → Prop} {result : CloneResult α} :
    Sound Stands result ↔ Keeps Arena.Sound Stands result :=
  ⟨fun sound => ⟨sound.arena, sound.value⟩, fun keeps => ⟨keeps.arena, keeps.value⟩⟩

/-- Work that succeeds as long as something holds, and keeps it so, succeeds on every list. -/
theorem each_ok {Kept : Arena → Prop} {work : α → Arena → CloneResult β} {entries : List α}
    (step : ∀ entry ∈ entries, ∀ before : Arena, Kept before →
      ∃ value after, work entry before = (.ok value, after) ∧ Kept after)
    {before : Arena} (kept : Kept before) :
    ∃ values after, each work entries before = (.ok values, after) := by
  induction entries generalizing before with
  | nil => exact ⟨[], before, rfl⟩
  | cons entry rest inductionHypothesis =>
      obtain ⟨value, middle, done, keptMiddle⟩ := step entry List.mem_cons_self before kept
      obtain ⟨values, after, restDone⟩ := inductionHypothesis
        (fun other member => step other (List.mem_cons_of_mem entry member)) keptMiddle
      refine ⟨value :: values, after, ?_⟩
      rw [each, done, andThen_ok, restDone, andThen_ok]

end CloneResult

namespace Arena

open CloneResult (sound_iff_keeps)

theorem soundThroughout : KeptThroughout Sound Admits fun arena slot => slot.Admitted arena where
  madeLater extended _ admits := extended.admits admits
  filledLater extended _ admitted := extended.admitted admitted
  empty _sound := Or.inl rfl
  shared found _shareable _sound := Or.inr (exists_node?_iff.mp ⟨_, found⟩)
  child admits := admits
  list {arena ids} _short sound admits := ⟨sound.storeExprs admits, arena.admitted_storeExprs ids⟩
  node {arena node} sound admitted := ⟨sound.alloc admitted, arena.admits_alloc node⟩

section Requests

variable {arena : Arena} (sound : arena.Sound)

include sound

theorem clone_sound (id : ExprId) : CloneResult.Sound Admits (arena.clone id) :=
  sound_iff_keeps.mpr (soundThroughout.clone sound id)

theorem cloneAll_sound (ids : Option (List ExprId)) :
    CloneResult.Sound (fun after copies => ∀ present ∈ copies, ∀ id ∈ present, after.Admits id)
      (arena.cloneAll ids) :=
  sound_iff_keeps.mpr (soundThroughout.cloneAll sound ids)

theorem Sound.clone_ok {id : ExprId} (admitted : arena.Admits id) :
    ∃ copy after, arena.clone id = (.ok copy, after) :=
  (sound.wellFormedAt id).clone_ok admitted

theorem Sound.cloneAll_ok {ids : Option (List ExprId)}
    (admitted : ∀ present ∈ ids, ∀ id ∈ present, arena.Admits id) :
    ∃ copies after, arena.cloneAll ids = (.ok copies, after) := by
  cases ids with
  | none => exact ⟨none, arena, rfl⟩
  | some ids =>
      have step (id : ExprId) (present : id ∈ ids) (before : Arena)
          (kept : arena.Extends before ∧ before.Sound) :
          ∃ copy after, before.clone id = (.ok copy, after) ∧
            arena.Extends after ∧ after.Sound := by
        obtain ⟨extended, soundBefore⟩ := kept
        obtain ⟨copy, after, done⟩ :=
          soundBefore.clone_ok (extended.admits (admitted ids rfl id present))
        have grown := before.clone_extends id
        have soundAfter := (clone_sound soundBefore id).arena
        rw [done] at grown soundAfter
        exact ⟨copy, after, done, extended.trans grown, soundAfter⟩
      obtain ⟨copies, after, done⟩ := CloneResult.each_ok step ⟨.refl arena, sound⟩
      exact ⟨some copies, after, by rw [cloneAll, done, CloneResult.andThen_ok]⟩

end Requests

end Arena

end CompilerIR
