import Sitewright.Proofs.Render.Success

/-!
Contract: which forms stand in the element of another form.

A form is open for everything that is rendered in its element, however deep, be it through
components, conditionals, loops or the documents of regions; only a component that renders
another page or a search leaves it. A button with a form of its own needs to stand outside of
every form, but opens none.

Owns:
- `Stage.InForm`, the renders that take place in the element of a form;
- `Stage.inForm_iff`: these are the renders in whose scope a form is open;
- what becomes of forms in forms, and of all others.

Does not own: what a form is written to.
-/

namespace Sitewright

open Relation

/-! ## Scopes -/

namespace Scope

/-- The steps that do not change the scope but make a new one. -/
def Step.startsAnew : Step → Bool
  | .probe _ | .page .. => true
  | .enter _ | .inRouter _ => false

/-- What entering a route or a router keeps is as it was after the steps, unless one of them makes a
new scope, in which it is always the same. -/
theorem part_steps {α : Type} {part : Scope → α} {fresh : α}
    (probe : ∀ selected, part (.probe selected) = fresh)
    (page : ∀ route title, part (.page route title) = fresh)
    (enter : ∀ scope route, part (enter scope route) = part scope)
    (inRouter : ∀ scope container, part (inRouter scope container) = part scope)
    (scope : Scope) (steps : List Step) :
    part (scope.steps steps) = if steps.any Step.startsAnew then fresh else part scope := by
  unfold Scope.steps
  induction steps generalizing scope with
  | nil => rfl
  | cons first rest inductionHypothesis =>
      rw [List.foldl_cons, inductionHypothesis, List.any_cons]
      cases first with
      | probe selected => exact (congrArg _ (probe selected)).trans (ite_self fresh)
      | page route title => exact (congrArg _ (page route title)).trans (ite_self fresh)
      | enter route => exact congrArg _ (enter scope route)
      | inRouter container => exact congrArg _ (inRouter scope container)

theorem form_steps (scope : Scope) (steps : List Step) :
    (scope.steps steps).form = if steps.any Step.startsAnew then none else scope.form :=
  part_steps (fun _ => rfl) (fun _ _ => rfl) (fun _ _ => rfl) (fun _ _ => rfl) scope steps

theorem shell_steps (scope : Scope) (steps : List Step) :
    (scope.steps steps).shell = if steps.any Step.startsAnew then false else scope.shell :=
  part_steps (fun _ => rfl) (fun _ _ => rfl) (fun _ _ => rfl) (fun _ _ => rfl) scope steps

end Scope

/-! ## Renders in the element of a form -/

/-- The construct of a view that is written as a form of its own. -/
def Task.formConstruct? : Task → Option Construct
  | .view (.form ..) => some .form
  | .view (.quickButton ..) => some .quickButton
  | _ => none

/-- A component renders the view for another page, or for a search. -/
inductive Task.Departs : Task → Task → Prop where
  | departs {steps : List Scope.Step} (view : View) (next : String → Program)
      (anew : steps.any Scope.Step.startsAnew = true) :
      Departs (.program (.render steps view next)) (.view view)

namespace Stage

/-- In the course of the first render, the second one takes place in the element of a form:
of one that was open from the start, or of one that was opened on the way. -/
inductive InForm (start : Stage) : Stage → Prop where
  | start (around : start.setting.scope.form.isSome = true) : InForm start start
  | opened {form content : Stage} (course : ReflTransGen Inner start form)
      (opens : form.task.formConstruct? = some .form) (step : Inner form content) :
      InForm start content
  | kept {outer inner : Stage} (inForm : InForm start outer) (step : Inner outer inner)
      (stays : ¬ Task.Departs outer.task inner.task) : InForm start inner

/-- A form is open for what is in its element, and for what is in anything else that is in the
element and does not depart. -/
theorem Inner.form_open_iff {outer inner : Stage} (step : Inner outer inner) :
    inner.setting.scope.form.isSome = true ↔
      outer.task.formConstruct? = some .form ∨
        (outer.setting.scope.form.isSome = true ∧ ¬ Task.Departs outer.task inner.task) := by
  cases step with
  | form => simp [Task.formConstruct?, Scope.inForm]
  | rendering setting state steps view next =>
      rw [show ({ setting with scope := setting.scope.steps steps } : Setting).scope.form = _ from
        setting.scope.form_steps steps]
      have departs : Task.Departs (.program (.render steps view next)) (.view view) ↔
          steps.any Scope.Step.startsAnew = true :=
        ⟨fun | .departs _ _ anew => anew, .departs view next⟩
      rw [departs]
      cases steps.any Scope.Step.startsAnew <;> simp [Task.formConstruct?]
  | rendered =>
      have stays : ∀ task program, ¬ Task.Departs task (.program program) := by rintro _ _ ⟨⟩
      simp [Task.formConstruct?, stays]
  | child | element | body | otherwise | left | loop | switch | route | dataRoute | link | shellBody
  | shellHead | head | template | fallback | submit | hidden | button | component | output
  | readScope | ask =>
      refine ⟨fun around => .inr ⟨around, by rintro ⟨⟩⟩, ?_⟩
      rintro (opens | ⟨around, -⟩)
      · cases opens
      · exact around

/-- The renders in the element of a form are those in whose scope a form is open. -/
theorem inForm_iff {start inner : Stage} (course : ReflTransGen Inner start inner) :
    InForm start inner ↔ inner.setting.scope.form.isSome = true := by
  refine ⟨fun inForm => ?_, fun isOpen => ?_⟩
  · clear course
    induction inForm with
    | start around => exact around
    | opened _ opens step => exact step.form_open_iff.mpr (.inl opens)
    | kept _ step stays inductionHypothesis =>
        exact step.form_open_iff.mpr (.inr ⟨inductionHypothesis, stays⟩)
  · induction course with
    | refl => exact .start isOpen
    | tail before step inductionHypothesis =>
        rcases step.form_open_iff.mp isOpen with opens | ⟨around, stays⟩
        · exact .opened before opens step
        · exact .kept (inductionHypothesis around) step stays

theorem Inner.fails_of_course {start inner : Stage} {component : String} {source : Fault}
    (course : ReflTransGen Inner start inner)
    (failed : inner.outcome.1 = .error (.within component source)) :
    start.outcome.1 = .error (.within component source) := by
  induction course using ReflTransGen.head_induction_on with
  | refl => exact failed
  | head step _ inductionHypothesis => exact step.fails inductionHypothesis

end Stage

/-! ## Forms in forms -/

/-- How a form in the element of another one fails. -/
def Construct.nested (construct : Construct) : Fault :=
  .within construct.label (.misuse construct.label "form actions cannot be nested")

namespace Stage

variable {construct : Construct} {stage : Stage}

/-- With a form open, a form fails before anything else happens. -/
theorem outcome_of_open (shown : stage.task.formConstruct? = some construct)
    (around : stage.setting.scope.form.isSome = true) :
    stage.outcome = (.error construct.nested, stage.state) := by
  obtain ⟨task, setting, state⟩ := stage
  have refused : ∀ {α : Type} (kind : Construct) (rest : Render α),
      Render.construct kind (do Render.requireNoForm kind; rest) setting state =
        (.error kind.nested, state) := by
    intro α kind rest
    have failed : Render.requireNoForm kind setting state =
        (.error (.misuse kind.label "form actions cannot be nested"), state) := by
      simp only [Render.requireNoForm, Render.setting_bind, if_pos around]
      rfl
    simp only [Render.construct, Render.within, Render.bind_of_error failed]
    rfl
  cases task with
  | program running => cases shown
  | view view =>
      cases view
      case form action refresh attributes children =>
        obtain rfl : Construct.form = construct := Option.some.inj shown
        simp only [outcome, Task.render, View.render, Render.form]
        exact refused .form _
      case quickButton action refresh formAttributes hidden attributes children =>
        obtain rfl : Construct.quickButton = construct := Option.some.inj shown
        simp only [outcome, Task.render, View.render, Render.quickButton]
        exact refused .quickButton _
      all_goals cases shown

/-- With no form open, the content of a form begins to be rendered. -/
theorem inner_of_alone (shown : stage.task.formConstruct? = some construct)
    (alone : stage.setting.scope.form = none) : ∃ content, stage.Inner content := by
  obtain ⟨task, setting, state⟩ := stage
  cases task with
  | program running => cases shown
  | view view =>
      cases view
      case form action refresh attributes children =>
        exact ⟨_, .form action refresh attributes children alone rfl⟩
      case quickButton action refresh formAttributes hidden attributes children =>
        exact ⟨_, .hidden action refresh formAttributes attributes hidden children alone rfl⟩
      all_goals cases shown

/-- What is rendered in a button with a form of its own has no form open. -/
theorem Inner.alone_of_quickButton {content : Stage} (step : stage.Inner content)
    (shown : stage.task.formConstruct? = some .quickButton) :
    content.setting.scope.form = none := by
  cases step
  case hidden alone fresh => exact alone
  case button alone fresh rendered => exact alone
  all_goals cases shown

/-- A form or a button with a form of its own fails as misuse if it stands in the element of a
form, and then everything around it fails with the same fault; so a render that ends with a text
has no such nesting in its course. Everywhere else its content is rendered. In particular nothing
stands in a form by standing in a button: a form or a button in there is rendered like one outside
of all forms. -/
theorem forms_refused_exactly_in_forms {start inner : Stage}
    (course : ReflTransGen Inner start inner)
    (shown : inner.task.formConstruct? = some construct) :
    (InForm start inner →
      inner.outcome = (.error construct.nested, inner.state) ∧
        start.outcome.1 = .error construct.nested) ∧
    (¬ InForm start inner → ∃ content, inner.Inner content) ∧
    (construct = .quickButton → ∀ content, inner.Inner content → ¬ InForm start content) := by
  refine ⟨fun inForm => ?_, fun outside => ?_, ?_⟩
  · have refused := outcome_of_open shown ((inForm_iff course).mp inForm)
    exact ⟨refused, Inner.fails_of_course course (congrArg Prod.fst refused)⟩
  · rw [inForm_iff course, Option.not_isSome_iff_eq_none] at outside
    exact inner_of_alone shown outside
  · rintro rfl content step
    rw [inForm_iff (course.tail step), Option.not_isSome_iff_eq_none]
    exact step.alone_of_quickButton shown

/-- The view about to be rendered on a page of its own. -/
def onPage (view : View) : Stage :=
  { task := .view view
    setting := { config := .standard, pass := .build, scope := .page (.ofText "order") "Order" }
    state := .ofLedger (.ofBuild .empty (.ofConfig .standard)) }

def cancelOrder : Action :=
  { identity := 0, method := .delete, name := "cancel", islands := [] }

def placeOrder : Action :=
  { identity := 1, method := .post, name := "order", islands := [] }

def cancelButton : View :=
  .quickButton cancelOrder .none [] [] [] [.text "Cancel"]

/-- A form with a button for something else, which is shown on a condition. -/
def orderForm : Stage :=
  onPage (.form placeOrder .none []
    [.conditional (.literal (.bool true)) false [cancelButton] none])

/-- The condition does not hide the form from the button. -/
theorem orderForm_refused :
    ∃ inner, ReflTransGen Inner orderForm inner ∧
      inner.task.formConstruct? = some .quickButton ∧ InForm orderForm inner ∧
      orderForm.outcome.1 = .error Construct.quickButton.nested := by
  have inElement : Inner orderForm _ := .form placeOrder .none [] _ rfl rfl
  have atCondition := (ReflTransGen.single inElement).tail (.child (.here _ _ _))
  have inBranch := atCondition.tail (.body _ _ false [cancelButton] none rfl)
  have atButton := inBranch.tail (.child (.here _ _ _))
  have inForm := (inForm_iff atButton).mpr rfl
  obtain ⟨refused, -⟩ := forms_refused_exactly_in_forms atButton rfl
  exact ⟨_, atButton, rfl, inForm, (refused inForm).2⟩

/-- A button whose label holds another button with a form of its own. -/
def orderButton : Stage :=
  onPage (.quickButton placeOrder .none [] [] [] [cancelButton])

/-- The inner button stands in the form of the outer one, and nothing fails. -/
theorem orderButton_nests_forms :
    orderButton.task.formConstruct? = some .quickButton ∧
      (∃ content inner, orderButton.Inner content ∧ content.Inner inner ∧
        inner.task = .view cancelButton) ∧
      orderButton.outcome.1.toOption = some
        ("<form id=\"form_1\"><button hx-include=\"#form_1\" hx-post=\"/__actions/order\" " ++
          "hx-swap=\"none\"><form id=\"form_2\"><button hx-include=\"#form_2\" " ++
          "hx-delete=\"/__actions/cancel\" hx-swap=\"none\">Cancel</button></form></button>" ++
          "</form>") := by
  refine ⟨rfl, ?_, by decide +kernel⟩
  have inButton : Inner orderButton _ :=
    .button placeOrder .none [] [] [cancelButton] rfl rfl rfl
  exact ⟨_, _, inButton, .child (.here _ _ _), rfl⟩

end Stage

end Sitewright
