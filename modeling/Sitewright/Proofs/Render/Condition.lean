import Sitewright.Proofs.Render.Raising
import Sitewright.Proofs.Template.Summary

/-!
Contract: what a conditional does with its condition.

A condition that cannot be written ends everything before anything is rendered. One that can be
written is only put into the text, so that all of them fare alike.

Owns:
- `Render.FareAlike`, for renders that differ in their texts at most;
- `Stage.outcome_of_defect` and `Render.FareAlike.conditional`;
- `condition_told_by_leaves`: the leaves of a condition tell what it is made of, whether it can be
  written, and what becomes of a conditional over it.

Does not own: how blocks are written.
-/

namespace Sitewright

open Number Template Render

/-! ## Renders that fare alike -/

theorem Render.within_eq_error_iff {α : Type} {component : String} {render : Render α}
    {setting : Setting} {state : State} {fault : Fault} :
    (within component render setting state).1 = .error fault ↔
      ∃ source, (render setting state).1 = .error source ∧ source.attributed component = fault := by
  unfold within
  rcases outcome : render setting state with ⟨source | value, after⟩
  · exact ⟨fun failed => ⟨source, rfl, Except.error.inj failed⟩,
      fun ⟨_, same, attributed⟩ => by rw [← attributed, ← Except.error.inj same]⟩
  · exact ⟨nofun, nofun⟩

/-- Both end in the same state, and if they fail, with the same fault. -/
def FareAlike {α : Type} (first second : Except Fault α × State) : Prop :=
  first.2 = second.2 ∧ ∀ fault, first.1 = .error fault ↔ second.1 = .error fault

namespace FareAlike

variable {α β : Type} {setting : Setting} {state : State}

theorem refl (outcome : Except Fault α × State) : FareAlike outcome outcome :=
  ⟨rfl, fun _ => Iff.rfl⟩

theorem value (first second : α) :
    FareAlike ((pure first : Render α) setting state) ((pure second : Render α) setting state) :=
  ⟨rfl, fun _ => ⟨nofun, nofun⟩⟩

theorem bind (render : Render α) {first second : α → Render β}
    (alike : ∀ value after, FareAlike (first value setting after) (second value setting after)) :
    FareAlike ((render >>= first) setting state) ((render >>= second) setting state) := by
  rcases outcome : render setting state with ⟨fault | value, after⟩
  · rw [bind_of_error outcome, bind_of_error outcome]
    exact .refl _
  · rw [bind_of_ok outcome, bind_of_ok outcome]
    exact alike value after

theorem within {first second : Render α} (component : String)
    (alike : FareAlike (first setting state) (second setting state)) :
    FareAlike (Render.within component first setting state)
      (Render.within component second setting state) := by
  constructor
  · rw [state_within, state_within]
    exact alike.1
  · intro fault
    rw [within_eq_error_iff, within_eq_error_iff]
    exact exists_congr fun source => and_congr_left fun _ => alike.2 source

/-- Conditions that can be written stand in the text alone. -/
theorem conditional {first second : Expr} (firstWritable : first.defect? = none)
    (secondWritable : second.defect? = none) (negated : Bool) (body : Render String)
    (otherwise : Option (Render String)) :
    FareAlike (Render.conditional first negated body otherwise setting state)
      (Render.conditional second negated body otherwise setting state) := by
  rw [conditional_of_writable firstWritable, conditional_of_writable secondWritable]
  refine .bind _ fun rendered after => .bind _ fun chosen final => ?_
  exact .bind _ fun alternative last => .value _ _

end FareAlike

/-! ## Conditionals -/

namespace Stage

variable {condition : Expr} {reason : String} {negated : Bool} {body : List View}
  {otherwise : Option View} {setting : Setting} {state : State}

/-- A condition that cannot be written leaves everything as it was. -/
theorem outcome_of_defect (defective : condition.defect? = some reason) :
    outcome ⟨.view (.conditional condition negated body otherwise), setting, state⟩ =
      (.error (.within Construct.conditional.label
        (.misuse Construct.conditional.label reason)), state) := by
  have failed : ∀ given, Render.conditional condition negated (View.renderAll body) given setting
      state = (.error (.misuse Construct.conditional.label reason), state) := by
    intro given
    rw [conditional_of_defect defective]
    rfl
  cases otherwise with
  | none => exact within_of_error (failed none)
  | some view => exact within_of_error (failed (some view.render))

/-- Nothing starts inside of a conditional that cannot be written. -/
theorem alone_of_defect (defective : condition.defect? = some reason) (inner : Stage) :
    ¬ Inner ⟨.view (.conditional condition negated body otherwise), setting, state⟩ inner := by
  intro starts
  cases starts with
  | body setting state negated body otherwise writable
  | otherwise negated view writable
  | left negated writable =>
      rw [writable] at defective
      cases defective

theorem raises_misuse_iff :
    Raises ⟨.view (.conditional condition negated body otherwise), setting, state⟩
      (.misuse Construct.conditional.label reason) ↔ condition.defect? = some reason := by
  constructor
  · intro raises
    generalize told : Fault.misuse Construct.conditional.label reason = fault at raises
    cases raises with
    | condition setting state negated body otherwise defective =>
        rw [defective, (Fault.misuse.inj told).2]
    | twoAlternatives => exact absurd (Fault.misuse.inj told).1 (by decide)
    | nestedForm shown around => cases shown
  · exact .condition setting state negated body otherwise

theorem fareAlike_of_writable {first second : Expr} (firstWritable : first.defect? = none)
    (secondWritable : second.defect? = none) :
    FareAlike (outcome ⟨.view (.conditional first negated body otherwise), setting, state⟩)
      (outcome ⟨.view (.conditional second negated body otherwise), setting, state⟩) := by
  cases otherwise with
  | none => exact .within _ (.conditional firstWritable secondWritable _ _ none)
  | some view => exact .within _ (.conditional firstWritable secondWritable _ _ (some view.render))

end Stage

/-! ## What the leaves tell -/

/-- The leaves tell everything. Make any condition call by call. The references that it is reported
to be made of are those at its leaves, from left to right and as often as they occur; it is reported
to be invalid exactly if a number at a leaf is infinite or not a number, and the reason is that of
the leftmost such number. Then a conditional over it, wherever it stands, fails with this very
misuse: nothing has been rendered by then and nothing has changed. A conditional whose condition has
only finite numbers never raises a misuse of its own, and fares like one over any other such
condition: it ends in the same state, and it fails exactly if the other one does, with the same
fault. -/
theorem condition_told_by_leaves (condition : Expr) :
    condition.made.Agrees condition ∧
    condition.made.operands = condition.leaves.filterMap Leaf.ref? ∧
    (condition.made.defect?.isSome = true ↔
      ∃ value : Binary64, .literal (.float value) ∈ condition.leaves ∧
        (value = .nan ∨ ∃ negative, value = .infinite negative)) ∧
    (∀ reason, condition.made.defect? = some reason ↔
      ∃ (front : List Leaf) (value : Binary64) (back : List Leaf),
        condition.leaves = front ++ .literal (.float value) :: back ∧
        (∀ leaf ∈ front, leaf.isFinite = true) ∧ value.isFinite = false ∧
        reason = "`" ++ value.text .plain ++ "` has no template literal form") ∧
    ∀ (negated : Bool) (body : List View) (otherwise : Option View) (setting : Setting)
      (state : State),
      let shown (condition : Expr) : Stage :=
        ⟨.view (.conditional condition negated body otherwise), setting, state⟩
      (∀ reason, condition.made.defect? = some reason →
        (shown condition).outcome = (.error (.within "If" (.misuse "If" reason)), state) ∧
        ∀ inner, ¬ (shown condition).Inner inner) ∧
      (∀ reason, (shown condition).Raises (.misuse "If" reason) ↔
        condition.made.defect? = some reason) ∧
      ∀ other : Expr, (∀ leaf ∈ condition.leaves, leaf.isFinite = true) →
        (∀ leaf ∈ other.leaves, leaf.isFinite = true) →
        FareAlike (shown condition).outcome (shown other).outcome := by
  have agrees := condition.agrees_made
  refine ⟨agrees, ?_, ?_⟩
  · rw [agrees.operands, condition.refs_eq_filterMap]
  rw [agrees.defect]
  refine ⟨Expr.defect?_isSome_iff, fun reason => Expr.defect?_eq_some_iff, ?_⟩
  intro negated body otherwise setting state shown
  refine ⟨fun reason defective => ?_, fun reason => Stage.raises_misuse_iff, ?_⟩
  · exact ⟨Stage.outcome_of_defect defective, Stage.alone_of_defect defective⟩
  · intro other finite otherFinite
    exact Stage.fareAlike_of_writable (Expr.defect?_eq_none_iff.mpr finite)
      (Expr.defect?_eq_none_iff.mpr otherFinite)

/-- The price is known, and it is not below all bounds. -/
def priceCondition (bound : Binary64) : Expr :=
  .junction .all [.ref ⟨".price"⟩,
    .not (.compare .less (.ref ⟨".price"⟩) (.literal (.float bound))),
    .literal (.float .nan)]

/-- Of both numbers, the bound stands further to the left. -/
theorem priceCondition_told :
    (priceCondition (.infinite true)).made.operands = [⟨".price"⟩, ⟨".price"⟩] ∧
      (Stage.onPage
        (.conditional (priceCondition (.infinite true)) true [.text "Sold"] none)).outcome.1 =
          .error (.within "If" (.misuse "If" "`-inf` has no template literal form")) ∧
      FareAlike
        (Stage.onPage (.conditional (.ref ⟨".price"⟩) true [.text "Sold"] none)).outcome
        (Stage.onPage (.conditional (.literal (.bool true)) true [.text "Sold"] none)).outcome := by
  obtain ⟨-, operands, -, reported, fails⟩ := condition_told_by_leaves
    (priceCondition (.infinite true))
  have reason : (priceCondition (.infinite true)).made.defect? =
      some "`-inf` has no template literal form" :=
    (reported _).mpr ⟨[.ref ⟨".price"⟩, .ref ⟨".price"⟩], .infinite true, [.literal (.float .nan)],
      by decide, by decide, rfl, by decide⟩
  obtain ⟨-, -, -, -, fares⟩ := condition_told_by_leaves (.ref ⟨".price"⟩)
  refine ⟨operands.trans (by decide), ?_, ?_⟩
  · exact congrArg Prod.fst ((fails true [.text "Sold"] none _ _).1 _ reason).1
  · exact (fares true [.text "Sold"] none _ _).2.2 (.literal (.bool true)) (by decide) (by decide)

end Sitewright
