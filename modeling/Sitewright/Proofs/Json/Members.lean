import Mathlib.Data.List.Induction
import Mathlib.Data.List.Nodup
import Mathlib.Data.String.Basic
import Sitewright.Json.Value

/-!
Contract: members of an object that are sorted by key, the last one under a key kept.

Owns:
- `Json.ascending_sortMembers`: the keys of sorted members ascend, so that none is there twice;
- `Json.find?_sortMembers`: under each key there is the value that came last;
- which keys there are.

Does not own: members that are written as they are given.
-/

namespace Sitewright.Json

variable {members : List (String × Json)} {key : String} {value : Json}

/-- The keys of the members ascend. -/
def Ascending (members : List (String × Json)) : Prop :=
  members.Pairwise fun first second => first.1 < second.1

theorem Ascending.nodup_keys (ascending : Ascending members) : (members.map Prod.fst).Nodup := by
  rw [List.Nodup, List.pairwise_map]
  exact ascending.imp fun less => ne_of_lt less

theorem get?_object (key : String) (members : List (String × Json)) :
    (Json.object members).get? key =
      (members.find? fun entry => entry.1 = key).map Prod.snd := rfl

theorem get?_object_eq_none_iff {key : String} {members : List (String × Json)} :
    (Json.object members).get? key = none ↔ key ∉ members.map Prod.fst := by
  simp only [get?_object, Option.map_eq_none_iff, List.find?_eq_none, decide_eq_true_eq,
    List.mem_map, not_exists, not_and]

/-! ## One member -/

theorem key_mem_insertMember {other : String} :
    other ∈ (insertMember key value members).map Prod.fst ↔
      other = key ∨ other ∈ members.map Prod.fst := by
  induction members with
  | nil => simp [insertMember]
  | cons first rest inductionHypothesis =>
      obtain ⟨name, old⟩ := first
      unfold insertMember
      split
      · simp
      · split
        · next same => simp [same]
        · rw [List.map_cons, List.mem_cons, inductionHypothesis, List.map_cons, List.mem_cons,
            or_left_comm]

theorem Ascending.insertMember (ascending : Ascending members) (key : String) (value : Json) :
    Ascending (insertMember key value members) := by
  induction members with
  | nil => exact List.pairwise_singleton _ _
  | cons first rest inductionHypothesis =>
      obtain ⟨name, old⟩ := first
      obtain ⟨above, restAscending⟩ := List.pairwise_cons.mp ascending
      unfold Json.insertMember
      split
      · next less =>
          refine List.pairwise_cons.mpr ⟨fun entry member => ?_, ascending⟩
          rcases List.mem_cons.mp member with rfl | inRest
          · exact less
          · exact less.trans (above entry inRest)
      · next notLess =>
          split
          · next same =>
              subst same
              exact List.pairwise_cons.mpr ⟨above, restAscending⟩
          · next different =>
              refine List.pairwise_cons.mpr ⟨fun entry member => ?_,
                inductionHypothesis restAscending⟩
              have greater : name < key := lt_of_le_of_ne (not_lt.mp notLess) (Ne.symm different)
              rcases key_mem_insertMember.mp (List.mem_map_of_mem member) with same | inRest
              · exact same ▸ greater
              · obtain ⟨other, otherMember, same⟩ := List.mem_map.mp inRest
                exact same ▸ above other otherMember

/-- The new value is found under its key, and the old ones under theirs. -/
theorem find?_insertMember (wanted : String) :
    (insertMember key value members).find? (fun entry => entry.1 = wanted) =
      if key = wanted then some (key, value)
      else members.find? fun entry => entry.1 = wanted := by
  induction members with
  | nil => simp [insertMember]
  | cons first rest inductionHypothesis =>
      obtain ⟨name, old⟩ := first
      unfold insertMember
      by_cases isWanted : key = wanted
      · rw [if_pos isWanted] at inductionHypothesis ⊢
        split
        · simp [isWanted]
        · split
          · simp [isWanted]
          · next different =>
              rw [List.find?_cons_of_neg (by simp [← isWanted, Ne.symm different])]
              exact inductionHypothesis
      · rw [if_neg isWanted] at inductionHypothesis ⊢
        split
        · simp [isWanted]
        · split
          · next same => simp [← same, isWanted]
          · rw [List.find?_cons, List.find?_cons, inductionHypothesis]

/-! ## All members -/

theorem sortMembers_concat (members : List (String × Json)) (entry : String × Json) :
    sortMembers (members ++ [entry]) = insertMember entry.1 entry.2 (sortMembers members) := by
  unfold sortMembers
  rw [List.foldl_concat]

theorem ascending_sortMembers (members : List (String × Json)) :
    Ascending (sortMembers members) := by
  induction members using List.reverseRecOn with
  | nil => exact List.Pairwise.nil
  | append_singleton members entry inductionHypothesis =>
      rw [sortMembers_concat]
      exact inductionHypothesis.insertMember entry.1 entry.2

theorem key_mem_sortMembers :
    key ∈ (sortMembers members).map Prod.fst ↔ key ∈ members.map Prod.fst := by
  induction members using List.reverseRecOn with
  | nil => rfl
  | append_singleton members entry inductionHypothesis =>
      rw [sortMembers_concat, key_mem_insertMember, inductionHypothesis, List.map_append,
        List.mem_append, List.map_singleton, List.mem_singleton, or_comm]

/-- Of several members with one key the last one is found. -/
theorem find?_sortMembers (members : List (String × Json)) (wanted : String) :
    (sortMembers members).find? (fun entry => entry.1 = wanted) =
      members.reverse.find? fun entry => entry.1 = wanted := by
  induction members using List.reverseRecOn with
  | nil => rfl
  | append_singleton members entry inductionHypothesis =>
      obtain ⟨key, value⟩ := entry
      rw [sortMembers_concat, find?_insertMember, inductionHypothesis, List.reverse_concat,
        List.find?_cons]
      by_cases isWanted : key = wanted <;> simp [isWanted]

/-- Behind other members, the sorted ones are found unless those have the key. -/
theorem get?_append_sortMembers (front members : List (String × Json)) (key : String) :
    (Json.object (front ++ sortMembers members)).get? key =
      ((Json.object front).get? key).or ((Json.object members.reverse).get? key) := by
  rw [get?_object, List.find?_append, find?_sortMembers, Option.map_or]
  rfl

end Sitewright.Json
