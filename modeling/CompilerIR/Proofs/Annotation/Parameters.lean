import CompilerIR.Annotation.Basic
import Mathlib.Data.List.Induction
import Mathlib.Data.List.Nodup

/-!
Parameters by their names. Main statement: when any values have been stored, one after the
other, every name stands where it was first given, with the value that it was given last.
-/

namespace CompilerIR.Parameters

def settled (given : List (String × ElementValue)) : Parameters :=
  (given.map Prod.fst).eraseDups.filterMap fun name =>
    (given.reverse.lookup name).map fun value => (name, value)

theorem nodup_names_insert {params : Parameters} (distinct : (params.map Prod.fst).Nodup)
    (name : String) (value : ElementValue) : ((params.insert name value).map Prod.fst).Nodup := by
  rw [names_insert]
  split
  · exact distinct
  · rename_i fresh
    rw [List.nodup_append]
    refine ⟨distinct, List.nodup_singleton name, ?_⟩
    intro held member other same
    rw [List.mem_singleton.mp same]
    rintro rfl
    exact fresh member

theorem mem_of_mem_insert {name : String} {value : ElementValue} {params : Parameters}
    {pair : String × ElementValue} (member : pair ∈ params.insert name value) :
    pair = (name, value) ∨ pair ∈ params := by
  induction params with
  | nil => exact .inl (List.mem_singleton.mp member)
  | cons first rest inductionHypothesis =>
      obtain ⟨held, old⟩ := first
      rw [insert] at member
      split at member
      · exact (List.mem_cons.mp member).imp_right (List.mem_cons_of_mem (held, old))
      · rcases List.mem_cons.mp member with here | later
        · exact .inr (List.mem_cons.mpr (.inl here))
        · exact (inductionHypothesis later).imp_right (List.mem_cons_of_mem (held, old))

theorem insert_of_not_mem {name : String} {params : Parameters}
    (fresh : name ∉ params.map Prod.fst) (value : ElementValue) :
    params.insert name value = params ++ [(name, value)] := by
  induction params with
  | nil => rfl
  | cons first rest inductionHypothesis =>
      obtain ⟨held, old⟩ := first
      rw [List.map_cons, List.mem_cons, not_or] at fresh
      rw [insert, if_neg (Ne.symm fresh.1), inductionHypothesis fresh.2, List.cons_append]

theorem ofList_concat (given : List (String × ElementValue)) (name : String)
    (value : ElementValue) :
    ofList (given ++ [(name, value)]) = (ofList given).insert name value := by
  rw [ofList, List.foldl_append]
  rfl

theorem nodup_names_ofList (given : List (String × ElementValue)) :
    ((ofList given).map Prod.fst).Nodup := by
  induction given using List.reverseRecOn with
  | nil => exact List.nodup_nil
  | append_singleton earlier last inductionHypothesis =>
      rw [ofList_concat]
      exact nodup_names_insert inductionHypothesis _ _

theorem names_ofList (given : List (String × ElementValue)) :
    (ofList given).map Prod.fst = (given.map Prod.fst).eraseDups := by
  induction given using List.reverseRecOn with
  | nil => rfl
  | append_singleton earlier last inductionHypothesis =>
      obtain ⟨name, value⟩ := last
      rw [ofList_concat, names_insert, inductionHypothesis, List.map_append, List.map_singleton,
        List.eraseDups_append]
      simp only [List.mem_eraseDups]
      by_cases known : name ∈ earlier.map Prod.fst
      · simp [known, List.removeAll]
      · simp [known, List.removeAll, List.eraseDups_cons]

theorem get?_ofList (given : List (String × ElementValue)) (name : String) :
    get? name (ofList given) = given.reverse.lookup name := by
  induction given using List.reverseRecOn with
  | nil => rfl
  | append_singleton earlier last inductionHypothesis =>
      obtain ⟨key, value⟩ := last
      rw [ofList_concat, get?_insert, inductionHypothesis, List.reverse_append,
        List.reverse_singleton, List.singleton_append, List.lookup_cons]
      by_cases same : key = name
      · subst same
        simp
      · rw [if_neg same, beq_false_of_ne (Ne.symm same)]

/-- Parameters are determined by their names and what is found under these. -/
theorem filterMap_get? {params : Parameters} (distinct : (params.map Prod.fst).Nodup) :
    ((params.map Prod.fst).filterMap fun name =>
      (get? name params).map fun value => (name, value)) = params := by
  induction params with
  | nil => rfl
  | cons first rest inductionHypothesis =>
      obtain ⟨held, old⟩ := first
      rw [List.map_cons, List.nodup_cons] at distinct
      have others : ((rest.map Prod.fst).filterMap fun name =>
          (get? name ((held, old) :: rest)).map fun value => (name, value)) = rest := by
        refine (List.filterMap_congr ?_).trans (inductionHypothesis distinct.2)
        intro name member
        have other : held ≠ name := by
          rintro rfl
          exact distinct.1 member
        rw [get?, if_neg other]
      rw [List.map_cons, List.filterMap_cons, get?, if_pos rfl]
      exact congrArg ((held, old) :: ·) others

theorem ofList_eq_settled (given : List (String × ElementValue)) :
    ofList given = settled given := by
  rw [← filterMap_get? (nodup_names_ofList given), names_ofList, settled]
  simp only [get?_ofList]

theorem settled_of_nodup {given : List (String × ElementValue)}
    (distinct : (given.map Prod.fst).Nodup) : settled given = given := by
  rw [← ofList_eq_settled]
  induction given using List.reverseRecOn with
  | nil => rfl
  | append_singleton earlier last inductionHypothesis =>
      obtain ⟨name, value⟩ := last
      rw [List.map_append, List.nodup_append] at distinct
      have fresh : name ∉ earlier.map Prod.fst := by
        intro member
        exact distinct.2.2 name member name (List.mem_singleton.mpr rfl) rfl
      rw [ofList_concat, inductionHypothesis distinct.1, insert_of_not_mem fresh]

theorem mem_of_mem_settled {given : List (String × ElementValue)} {pair : String × ElementValue}
    (member : pair ∈ settled given) : pair ∈ given := by
  obtain ⟨name, _first, found⟩ := List.mem_filterMap.mp member
  obtain ⟨value, last, rfl⟩ := Option.map_eq_some_iff.mp found
  obtain ⟨before, after, split, _others⟩ := List.lookup_eq_some_iff.mp last
  rw [← List.mem_reverse, split]
  exact List.mem_append_right before List.mem_cons_self

end CompilerIR.Parameters
