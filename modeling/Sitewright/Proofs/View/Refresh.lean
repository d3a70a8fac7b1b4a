import Sitewright.Proofs.Keyed
import Sitewright.View.Action

/-!
Contract: which islands a form has refreshed, and how often each of them is named.

An action names an island every time that it is related to it. A form adds its own islands, each
of them only if it is not named yet. So an island is named twice only if the action was related to
it twice.

Owns:
- `Action.Made`, the actions that there are, with the islands that they were related to;
- `Refresh.islandIds_eq` and `Refresh.count_islandIds`, the islands in their order, and how
  often each one is there;
- `Refresh.islandIds_eq_eraseDups_iff`: when every island is named once.

Does not own: the call in which the islands are written.
-/

namespace Sitewright

namespace Action

/-- The action was created, and it was related to the islands in turn. -/
inductive Made : Action → (related : List String) → Prop where
  | created (method : Method) (name : String) (next : Nat) : Made (create method name next).1 []
  | related {action : Action} {related : List String} (made : Made action related)
      (island : String) (next : Nat) : Made (action.relate island next).1 (related ++ [island])

/-- An action names all islands that it was related to, in order and as often as it was. -/
theorem Made.islands_eq {action : Action} {related : List String} (made : action.Made related) :
    action.islands = related := by
  induction made with
  | created method name next => rfl
  | related made island next inductionHypothesis =>
      exact congrArg (· ++ [island]) inductionHypothesis

theorem Made.relateAll {action : Action} {related : List String} (made : action.Made related)
    (islands : List String) (next : Nat) :
    (action.relateAll islands next).1.Made (related ++ islands) := by
  induction islands generalizing action related next with
  | nil =>
      rw [List.append_nil]
      exact made
  | cons first rest inductionHypothesis =>
      have further := inductionHypothesis (made.related first next) (next + 1)
      rwa [List.append_assoc] at further

end Action

namespace Refresh

theorem appendNew_eq (listed new : List String) : appendNew listed new = addAll id listed new := by
  induction new generalizing listed with
  | nil => rfl
  | cons first rest inductionHypothesis =>
      rw [appendNew, ← addNew_id, inductionHypothesis]
      rfl

variable (refresh : Refresh) (action : Action)

/-- The islands of the action as they are, then those of the form that are new, each of them where
it was named first. -/
theorem islandIds_eq :
    refresh.islandIds action =
      action.islands ++ (refresh.islands.removeAll action.islands).eraseDups := by
  unfold islandIds
  rw [appendNew_eq, addAll_id]

theorem mem_islandIds {island : String} :
    island ∈ refresh.islandIds action ↔ island ∈ action.islands ∨ island ∈ refresh.islands := by
  unfold islandIds
  rw [appendNew_eq, mem_addAll_id]

/-- An island is named as often as the action names it, and once if only the form does. -/
theorem count_islandIds (island : String) :
    (refresh.islandIds action).count island =
      max (action.islands.count island) (if island ∈ refresh.islands then 1 else 0) := by
  have single : (refresh.islands.removeAll action.islands).eraseDups.count island =
      if island ∈ refresh.islands ∧ island ∉ action.islands then 1 else 0 := by
    simpa [List.removeAll] using
      (nodup_eraseDups (refresh.islands.removeAll action.islands)).count (a := island)
  rw [islandIds_eq, List.count_append, single]
  by_cases known : island ∈ action.islands
  · have named := List.count_pos_iff.mpr known
    rw [if_neg fun new => new.2 known]
    split <;> omega
  · simp [known, List.count_eq_zero_of_not_mem]

/-- Every island is named once, where it was named first, exactly if the action was not related to
any island twice. -/
theorem islandIds_eq_eraseDups_iff :
    refresh.islandIds action = (action.islands ++ refresh.islands).eraseDups ↔
      action.islands.Nodup := by
  rw [islandIds_eq, List.eraseDups_append, List.append_cancel_right_eq, eq_comm,
    eraseDups_eq_self_iff]

end Refresh

end Sitewright
